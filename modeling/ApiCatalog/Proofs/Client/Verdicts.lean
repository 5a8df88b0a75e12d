import ApiCatalog.Proofs.Client.Reading

/-!
# What a reply carries, and what spoils it

A reply either carries a text or is spoiled, and then one error tells why. A document is what the
text spells; a resource list may also be left blank.

- `Client.Carries`, `Client.Spoils` : the two ways of a reply, with no order of checks between them
- `Client.Tells`, `Client.Garbles`  : a document that a reply brings, or fails to bring
- `Client.Lists`, `Client.GarblesList` : the same for a resource list
- `Client.textOf_eq_ok_iff`, `Client.textOf_eq_error_iff` : reading a reply finds out which it is
- `Client.documentOf_eq_ok_iff`, `Client.listOf_eq_ok_iff`, … : the same for documents and lists
-/

namespace ApiCatalog
namespace Client

variable {α : Type} [Wire.Document α] {reply : Reply} {text : String} {e : Error}

/-! ## Texts -/

/-- A response whose status tells no failure, and whose body comes to its end and is UTF-8. -/
def Carries (reply : Reply) (text : String) : Prop :=
  ∃ status frames, reply = .response ⟨status, frames, none⟩ ∧
    ¬(400 ≤ status ∧ status ≤ 599) ∧ Utf8.decode frames.flatten = .ok text

/-- The error of a reply that carries no text. The body comes before the status: one that breaks off
or is no text hides what the status would tell. -/
inductive Spoils : Reply → Error → Prop
  /-- The service was not ready. -/
  | refused (f : Http.Failure Error) : Spoils (.refused f) (.service f.text)
  /-- The transport failed with an error of this library. -/
  | own {f : Http.Failure Error} {error : Error} (outermost : f.outer = .own error) :
      Spoils (.failed f) error
  /-- The transport failed in another way. -/
  | transport {f : Http.Failure Error} (foreign : ∀ error, f.outer ≠ .own error) :
      Spoils (.failed f) (transportError f)
  | broken (status : Nat) (frames : List Octets) (f : Http.Failure Error) :
      Spoils (.response ⟨status, frames, some f⟩) (bodyError f)
  | notText (status : Nat) {frames : List Octets} {fault : Utf8.Fault}
      (bad : Utf8.decode frames.flatten = .error fault) :
      Spoils (.response ⟨status, frames, none⟩) (.notUtf8 fault)
  | failure {status : Nat} {frames : List Octets} {text : String}
      (read : Utf8.decode frames.flatten = .ok text) (tells : 400 ≤ status ∧ status ≤ 599) :
      Spoils (.response ⟨status, frames, none⟩) (failureOf status text)

theorem isFailure_iff {status : Nat} :
    Http.isFailure status = true ↔ 400 ≤ status ∧ status ≤ 599 := by
  simp [Http.isFailure]

theorem receive_failed_of_foreign {f : Http.Failure Error}
    (foreign : ∀ error, f.outer ≠ .own error) :
    receive (.failed f) = .error (transportError f) := by
  rcases f with ⟨outer, inner⟩
  cases outer with
  | own error => exact absurd rfl (foreign error)
  | _ => rfl

theorem textOf_of_carries (h : Carries reply text) : textOf reply = .ok text := by
  rcases h with ⟨status, frames, rfl, fine, read⟩
  have fine' : ¬Http.isFailure status = true := fun failure => fine (isFailure_iff.1 failure)
  simp [textOf, receive, readBody, readOctets, read, fine', bind, Except.bind, pure, Except.pure]

theorem textOf_of_spoils (h : Spoils reply e) : textOf reply = .error e := by
  cases h with
  | refused f => rfl
  | own outermost => simp [textOf, receive, outermost, bind, Except.bind]
  | transport foreign => simp [textOf, receive_failed_of_foreign foreign, bind, Except.bind]
  | broken status frames f => rfl
  | notText status bad =>
      simp [textOf, receive, readBody, readOctets, bad, bind, Except.bind, throw, throwThe,
        MonadExceptOf.throw]
  | failure read tells =>
      have failure := isFailure_iff.2 tells
      simp [textOf, receive, readBody, readOctets, read, failure, bind, Except.bind, pure,
        Except.pure]

/-- Every reply carries a text or is spoiled. -/
theorem carries_or_spoils (reply : Reply) :
    (∃ text, Carries reply text) ∨ ∃ e, Spoils reply e := by
  cases reply with
  | refused f => exact .inr ⟨_, .refused f⟩
  | failed f =>
      by_cases own : ∃ error, f.outer = .own error
      · rcases own with ⟨error, outermost⟩
        exact .inr ⟨error, .own outermost⟩
      · exact .inr ⟨_, .transport fun error outermost => own ⟨error, outermost⟩⟩
  | response r =>
      rcases r with ⟨status, frames, _ | f⟩
      · cases read : Utf8.decode frames.flatten with
        | error fault => exact .inr ⟨_, .notText status read⟩
        | ok text =>
            by_cases tells : 400 ≤ status ∧ status ≤ 599
            · exact .inr ⟨_, .failure read tells⟩
            · exact .inl ⟨text, status, frames, rfl, tells, read⟩
      · exact .inr ⟨_, .broken status frames f⟩

theorem textOf_eq_ok_iff : textOf reply = .ok text ↔ Carries reply text := by
  constructor
  · intro brings
    -- of the two ways of a reply, only one brings a text
    rcases carries_or_spoils reply with ⟨other, carries⟩ | ⟨e, spoiled⟩
    · rw [textOf_of_carries carries] at brings
      cases brings
      exact carries
    · rw [textOf_of_spoils spoiled] at brings
      cases brings
  · exact textOf_of_carries

theorem textOf_eq_error_iff : textOf reply = .error e ↔ Spoils reply e := by
  constructor
  · intro fails
    rcases carries_or_spoils reply with ⟨text, carries⟩ | ⟨other, spoiled⟩
    · rw [textOf_of_carries carries] at fails
      cases fails
    · rw [textOf_of_spoils spoiled] at fails
      cases fails
      exact spoiled
  · exact textOf_of_spoils

theorem Carries.unique {other : String} (h : Carries reply text) (h' : Carries reply other) :
    text = other := by
  have same := (textOf_of_carries h).symm.trans (textOf_of_carries h')
  simpa using same

/-- An error of the transport that is a refused name has come from this library. -/
theorem naming_of_spoils {fault : NamingFault} (h : Spoils reply (.naming fault)) :
    ∃ f, reply = .failed f ∧ f.outer = .own (.naming fault) := by
  generalize same : Error.naming fault = e at h
  cases h with
  | refused f => cases same
  | @own f error outermost => exact ⟨f, rfl, same ▸ outermost⟩
  | @transport f foreign =>
      unfold transportError at same
      split at same
      · cases same
      · split at same <;> cases same
  | broken status frames f =>
      unfold bodyError at same
      split at same <;> cases same
  | notText status bad => cases same
  | failure read tells =>
      unfold failureOf at same
      split at same <;> cases same

/-! ## Documents -/

/-- The text of the reply spells `doc`. -/
def Tells (reply : Reply) (doc : α) : Prop :=
  ∃ text, Carries reply text ∧ Wire.decode α text = .ok doc

theorem not_tells {fault : Json.Fault} (carries : Carries reply text)
    (bad : Wire.decode α text = .error fault) (doc : α) : ¬Tells reply doc := by
  rintro ⟨other, carries', decoded⟩
  rw [← carries.unique carries', bad] at decoded
  cases decoded

/-- The text of the reply spells no document. -/
def Garbles (α : Type) [Wire.Document α] (reply : Reply) (e : Error) : Prop :=
  ∃ text fault, Carries reply text ∧ Wire.decode α text = .error fault ∧ e = .undecodable fault

/-- The text of the reply spells `list`, or is blank, which stands for a list without entries. -/
def Lists (reply : Reply) (list : Wire.ResourceList) : Prop :=
  ∃ text, Carries reply text ∧
    if Text.isBlankText text then list = .empty else Wire.decode Wire.ResourceList text = .ok list

/-- The text of the reply is not blank and spells no list. -/
def GarblesList (reply : Reply) (e : Error) : Prop :=
  ∃ text fault, Carries reply text ∧ Text.isBlankText text = false ∧
    Wire.decode Wire.ResourceList text = .error fault ∧ e = .undecodable fault

theorem textOf_bind_eq_ok_iff {β : Type} {f : String → Except Error β} {x : β} :
    textOf reply >>= f = .ok x ↔ ∃ text, Carries reply text ∧ f text = .ok x := by
  simp only [← textOf_eq_ok_iff]
  cases textOf reply <;> simp [bind, Except.bind]

theorem textOf_bind_eq_error_iff {β : Type} {f : String → Except Error β} :
    textOf reply >>= f = .error e ↔
      Spoils reply e ∨ ∃ text, Carries reply text ∧ f text = .error e := by
  simp only [← textOf_eq_ok_iff, ← textOf_eq_error_iff]
  cases textOf reply <;> simp [bind, Except.bind]

theorem decoded_of_ok {doc : α} (h : Wire.decode α text = .ok doc) : decoded α text = .ok doc := by
  rw [decoded, h]
  rfl

theorem decoded_of_error {fault : Json.Fault} (h : Wire.decode α text = .error fault) :
    decoded α text = .error (.undecodable fault) := by
  rw [decoded, h]
  rfl

theorem decoded_eq_ok_iff {doc : α} : decoded α text = .ok doc ↔ Wire.decode α text = .ok doc := by
  cases told : Wire.decode α text with
  | error fault => simp [decoded_of_error told]
  | ok other => simp [decoded_of_ok told]

theorem decoded_eq_error_iff :
    decoded α text = .error e ↔
      ∃ fault, Wire.decode α text = .error fault ∧ e = .undecodable fault := by
  cases told : Wire.decode α text with
  | error fault => simp [decoded_of_error told, eq_comm]
  | ok doc => simp [decoded_of_ok told]

theorem documentOf_eq_ok_iff {doc : α} : documentOf α reply = .ok doc ↔ Tells reply doc := by
  simp [documentOf, textOf_bind_eq_ok_iff, decoded_eq_ok_iff, Tells]

theorem documentOf_eq_error_iff :
    documentOf α reply = .error e ↔ Spoils reply e ∨ Garbles α reply e := by
  simp [documentOf, textOf_bind_eq_error_iff, decoded_eq_error_iff, Garbles]

theorem listOf_eq_ok_iff {list : Wire.ResourceList} :
    listOf reply = .ok list ↔ Lists reply list := by
  rw [listOf, textOf_bind_eq_ok_iff, Lists]
  refine exists_congr fun text => and_congr_right fun _ => ?_
  unfold readList
  split
  · simp [eq_comm]
  · exact decoded_eq_ok_iff

theorem listOf_eq_error_iff :
    listOf reply = .error e ↔ Spoils reply e ∨ GarblesList reply e := by
  rw [listOf, textOf_bind_eq_error_iff, GarblesList]
  refine or_congr_right (exists_congr fun text => ?_)
  unfold readList
  split
  · next blank => simp [blank]
  · next written => simp [written, decoded_eq_error_iff]

end Client
end ApiCatalog
