import ApiCatalog.Proofs.Client.Reading
import ApiCatalog.Proofs.Json.Blank
import ApiCatalog.Proofs.Text.Decoding
import ApiCatalog.Proofs.Wire.RoundTrip

/-!
# Documents that are served

A document that a server sends in one piece reaches the client as it was.

- `Client.textOf_served`     : its text
- `Client.documentOf_served` : the document
- `Client.listOf_served`     : a resource list, which is never taken for a blank text
-/

namespace ApiCatalog
namespace Client

theorem textOf_served {α : Type} [Wire.Document α] (doc : α) :
    textOf (served doc) = .ok (Wire.encode doc) := by
  have successful : Http.isFailure 200 = false := by decide
  simp [textOf, served, receive, readBody, readOctets, Utf8.decode_octets, successful, bind,
    Except.bind, pure, Except.pure]

theorem decoded_encode {α : Type} [Wire.Document α] (faithful : Wire.Faithful α) (doc : α) :
    decoded α (Wire.encode doc) = .ok doc := by
  rw [decoded, faithful.decode]
  rfl

theorem documentOf_served {α : Type} [Wire.Document α] (faithful : Wire.Faithful α) (doc : α) :
    documentOf α (served doc) = .ok doc := by
  simp only [documentOf, textOf_served, bind, Except.bind]
  exact decoded_encode faithful doc

theorem readList_encode (list : Wire.ResourceList) :
    readList (Wire.encode list) = .ok list := by
  have filled : ¬Text.isBlankText (Wire.encode list) = true := by
    intro blank
    -- nothing would be read from a blank text
    have ⟨fault, refused⟩ :=
      Wire.exists_fault_of_blank (α := Wire.ResourceList) blank ⟨_, rfl⟩ ⟨_, rfl⟩
    rw [Wire.faithful_resourceList.decode] at refused
    cases refused
  rw [readList, if_neg filled]
  exact decoded_encode Wire.faithful_resourceList list

theorem listOf_served (list : Wire.ResourceList) : listOf (served list) = .ok list := by
  simp only [listOf, textOf_served, bind, Except.bind]
  exact readList_encode list

end Client
end ApiCatalog
