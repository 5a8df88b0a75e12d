import ApiCatalog.Proofs.Client.Verdicts
import ApiCatalog.Proofs.Dialogue.Course
import ApiCatalog.Proofs.Text.Exactness

/-!
# How responses are classified

A request ends as its response tells: by the failure of a body that breaks off, and otherwise by the
status and the octets of the body, however these came in frames. What the body says of a status is
only carried along.

- `Client.outcome`              : how a request ends with a response
- `Client.bodyError_of_timedOut`, `Client.bodyError_of_calm` : the error of a body that breaks off
- `Client.outcome_of_text`      : the outcome with a body that is a text
- `Client.exists_failureOf`     : the error of a failure response, and the status that it carries
- `Client.classification`       : all of it together
-/

namespace ApiCatalog
namespace Client

open Http (Request Response)

/-- How a request ends that gets this response. -/
def outcome (request : Request) (response : Response Error) : Option (Except Error String) :=
  ((requestText request).course [.response response]).ending

variable {request : Request} {status : Nat} {frames : List Octets} {f : Http.Failure Error}
  {text : String}

theorem outcome_eq (request : Request) (response : Response Error) :
    outcome request response = some (textOf (.response response)) := by
  rw [outcome, (asks_requestText request).course_cons]

/-! ## Bodies that break off -/

/-- A timeout in the chain, under whatever texts it was passed on. -/
def TimedOut (f : Http.Failure Error) : Prop :=
  ∃ text, .timedOut text ∈ f.causes

theorem timedOut_iff : f.timedOut = true ↔ TimedOut f := by
  unfold Http.Failure.timedOut TimedOut
  rw [List.any_eq_true]
  constructor
  · rintro ⟨cause, mem, timeout⟩
    cases cause with
    | timedOut text => exact ⟨text, mem⟩
    | _ => cases timeout
  · rintro ⟨text, mem⟩
    exact ⟨_, mem, rfl⟩

theorem bodyError_of_timedOut (h : TimedOut f) : bodyError f = .readTimeout f.text :=
  if_pos (timedOut_iff.2 h)

theorem bodyError_of_calm (h : ¬TimedOut f) : bodyError f = .service f.text :=
  if_neg (mt timedOut_iff.1 h)

theorem outcome_of_broken (request : Request) (status : Nat) (frames : List Octets)
    (f : Http.Failure Error) :
    outcome request ⟨status, frames, some f⟩ = some (.error (bodyError f)) := by
  rw [outcome_eq, textOf_of_spoils (.broken status frames f)]

/-! ## Bodies that come to their end -/

/-- Only the octets count, not the frames that they came in. -/
theorem textOf_of_flatten {frames' : List Octets} (same : frames'.flatten = frames.flatten) :
    textOf (.response ⟨status, frames', none⟩) = textOf (.response ⟨status, frames, none⟩) := by
  have octets : readOctets ⟨status, frames', none⟩ = readOctets ⟨status, frames, none⟩ :=
    congrArg Except.ok same
  have body : readBody ⟨status, frames', none⟩ = readBody ⟨status, frames, none⟩ := by
    unfold readBody
    rw [octets]
  simp only [textOf, receive, bind, Except.bind, body]

theorem outcome_of_text (octets : frames.flatten = Utf8.encode text) :
    outcome request ⟨status, frames, none⟩ =
      some (if 400 ≤ status ∧ status ≤ 599 then .error (failureOf status text) else .ok text) := by
  have read := Utf8.decode_eq_ok_iff.2 octets
  rw [outcome_eq]
  split
  · next tells => rw [textOf_of_spoils (.failure read tells)]
  · next fine => rw [textOf_of_carries ⟨status, frames, rfl, fine, read⟩]

/-! ## Failure responses -/

/-- The status that a failure response carries: the one that its text spells, or one that is made of
the status of the response and of the text as it stands. -/
structure Carried (status : Nat) (text : String) (s : Wire.Status) : Prop where
  told : ∀ t, Wire.decode Wire.Status text = .ok t → s = t
  untold : ∀ fault, Wire.decode Wire.Status text = .error fault →
    s.status = Http.statusLine status ∧ s.message = Text.quote text ∧
      s.reason = "Failed to parse error data" ∧ s.code.toNat = status

theorem carried_statusOf (small : status ≤ 599) (text : String) :
    Carried status text (statusOf status text).2 := by
  constructor
  · intro t spelled
    simp [statusOf, spelled]
  · intro fault spoiled
    have fits : status < UInt16.size := Nat.lt_of_le_of_lt small (by decide)
    have code : (UInt16.ofNat status).toNat = status := UInt16.toNat_ofNat_of_lt' fits
    simp [statusOf, spoiled, reconstructed, code]

/-- A failure is an absence or an error of the api by its status alone. -/
theorem exists_failureOf (small : status ≤ 599) (text : String) :
    ∃ s, Carried status text s ∧
      failureOf status text = if status = 404 then .notFound s else .api s :=
  ⟨(statusOf status text).2, carried_statusOf small text, rfl⟩

/-! ## All responses -/

/-- A body that breaks off is a timeout if there is one in the chain, and a failure of the service
otherwise, whatever came before. One that comes to its end counts by its octets, with the status of
the response; if it is a text, that is what the request returns, unless the status tells a failure.
Then it is an absence at 404 and an error of the api elsewhere, whatever status the text spells. -/
theorem classification (request : Request) (status : Nat) (frames : List Octets) :
    (∀ f, (TimedOut f →
        outcome request ⟨status, frames, some f⟩ = some (.error (.readTimeout f.text))) ∧
      (¬TimedOut f →
        outcome request ⟨status, frames, some f⟩ = some (.error (.service f.text)))) ∧
    (∀ request' frames', frames'.flatten = frames.flatten →
      outcome request' ⟨status, frames', none⟩ = outcome request ⟨status, frames, none⟩) ∧
    ∀ text, frames.flatten = Utf8.encode text →
      let ends := outcome request ⟨status, frames, none⟩
      (ends = some (.ok text) ↔ ¬(400 ≤ status ∧ status ≤ 599)) ∧
      (∀ other, ends = some (.ok other) → other = text) ∧
      ((∃ s, ends = some (.error (.notFound s))) ↔ status = 404) ∧
      ((∃ s, ends = some (.error (.api s))) ↔
        (400 ≤ status ∧ status ≤ 599) ∧ status ≠ 404) ∧
      ∀ s, ends = some (.error (.notFound s)) ∨ ends = some (.error (.api s)) →
        Carried status text s := by
  refine ⟨fun f => ?_, fun request' frames' same => ?_, fun text octets => ?_⟩
  · rw [outcome_of_broken]
    constructor
    · intro timeout
      rw [bodyError_of_timedOut timeout]
    · intro calm
      rw [bodyError_of_calm calm]
  · rw [outcome_eq, outcome_eq, textOf_of_flatten same]
  · dsimp only
    rw [outcome_of_text octets]
    by_cases tells : 400 ≤ status ∧ status ≤ 599
    · obtain ⟨s, carried, failure⟩ := exists_failureOf tells.2 text
      rw [if_pos tells, failure]
      by_cases absent : status = 404
      · subst absent
        simpa using carried
      · simpa [absent, tells] using carried
    · have found : status ≠ 404 := by
        rintro rfl
        exact tells (by decide)
      simp [tells, found, eq_comm]

/-- A character that is split between frames. -/
example (request : Request) :
    outcome request ⟨200, [[0xC3], [0xA9]], none⟩ = some (.ok "é") := by
  rfl

end Client
end ApiCatalog
