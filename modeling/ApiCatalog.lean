import ApiCatalog.Config
import ApiCatalog.Dialogue.Laws
import ApiCatalog.Scripted
import ApiCatalog.Task
import ApiCatalog.Proofs.Registry.Growth
import ApiCatalog.Proofs.Registry.Reference
import ApiCatalog.Proofs.Client.Reading
import ApiCatalog.Proofs.Discovery.Pass
import ApiCatalog.Proofs.Discovery.Requests
import ApiCatalog.Proofs.Discovery.Outcome
import ApiCatalog.Proofs.Lookup.Candidates
import ApiCatalog.Proofs.Lookup.Precedence
import ApiCatalog.Proofs.Mapper.Advertised
import ApiCatalog.Proofs.Mapper.Answering
import ApiCatalog.Proofs.Session.OnceOnly
import ApiCatalog.Proofs.Session.Failures
import ApiCatalog.Proofs.Session.Placement
import ApiCatalog.Proofs.Discovery.Families
import ApiCatalog.Proofs.Discovery.Filtering
import ApiCatalog.Proofs.Mapper.Faultless
import ApiCatalog.Proofs.Wire.RoundTrip
import ApiCatalog.Proofs.Client.Confinement
import ApiCatalog.Proofs.Text.Exactness
import ApiCatalog.Proofs.Client.Classification
import ApiCatalog.Proofs.Client.FailureResponses
import ApiCatalog.Proofs.Discovery.Statuses
import ApiCatalog.Proofs.Uri.Outcome
import ApiCatalog.Proofs.Registry.Content
import ApiCatalog.Proofs.Lookup.Persistence
import ApiCatalog.Proofs.Lookup.Addressing
import ApiCatalog.Proofs.Lookup.PluralKinds
import ApiCatalog.Proofs.Lookup.BlankVersions
import ApiCatalog.Proofs.Wire.Content
import ApiCatalog.Proofs.Lookup.Spellings
import ApiCatalog.Proofs.Key.Reading
import ApiCatalog.Proofs.Client.Transport
import ApiCatalog.Proofs.Wire.Types
import ApiCatalog.Proofs.Lookup.PaddedKinds
import ApiCatalog.Proofs.Registry.Atomicity
import ApiCatalog.Proofs.Uri.Admission
import ApiCatalog.Proofs.Task.Carrying
