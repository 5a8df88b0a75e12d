import ApiCatalog.Proofs.Client.Classification

/-!
# What calls make of failure responses

Every call hands on the error of a failure response. The body is read before its status counts, so
the status decides which error that is as long as the body is a text, and a body that is none is
reported as such, at the status of an absence too.

- `Client.Calls`             : the calls, each with the request that it makes
- `Client.Calls.course_of_spoils` : a reply that is spoiled ends every call
- `Client.Presents`          : the error that the status of a response asks for
- `Client.failure_presented` : every call presents it, just when the body is a text
- `Client.absence_hidden`    : an absence that is not presented
-/

namespace ApiCatalog
namespace Client

open Dialogue (Asks)
open Http (Request)

variable {α : Type} {d : Dialogue α} {request : Request} {reply : Reply} {e : Error}
  {status : Nat}

/-! ## Calls -/

inductive Calls : {α : Type} → Dialogue α → Request → Prop
  | text (request : Request) : Calls (requestText request) request
  | document (α : Type) [Wire.Document α] (request : Request) :
      Calls (requestDocument α request) request
  | discovery {path : String} {request : Request}
      (made : Request.get? (discoveryUri path) = .ok request) : Calls (discoveryText path) request
  | versions {root : ApiRoot} {request : Request} (legacy : root.isLegacy = true)
      (made : Request.get? (discoveryUri root.name) = .ok request) :
      Calls (legacyVersions root) request
  | groups {request : Request}
      (made : Request.get? (discoveryUri ApiRoot.apis.name) = .ok request) :
      Calls groupList request
  | resources {path : String} {request : Request}
      (made : Request.get? (discoveryUri path) = .ok request) : Calls (resourceList path) request

theorem textOf_bind_ok (reply : Reply) : textOf reply >>= Except.ok = textOf reply := by
  cases textOf reply <;> rfl

/-- Every call makes its request and goes by the text of the reply. -/
theorem Calls.reads (call : Calls d request) :
    ∃ read : String → Except Error α, Asks d request fun reply => textOf reply >>= read := by
  cases call with
  | text =>
      refine ⟨.ok, ?_⟩
      simpa only [textOf_bind_ok] using asks_requestText request
  | document => exact ⟨_, (asks_requestText request).bind fun text => ending?_parse α text⟩
  | discovery made =>
      refine ⟨.ok, ?_⟩
      simpa only [textOf_bind_ok] using asks_discoveryText made
  | versions legacy made => exact ⟨_, asks_legacyVersions legacy made⟩
  | groups made => exact ⟨_, asks_groupList made⟩
  | resources made => exact ⟨_, asks_resourceList made⟩

/-- A reply that carries no text ends every call. -/
theorem Calls.course_of_spoils (call : Calls d request) (spoiled : Spoils reply e)
    (later : List Reply) : d.course (reply :: later) = ⟨[request], some (.error e)⟩ := by
  obtain ⟨read, asks⟩ := call.reads
  rw [asks.course_cons, textOf_of_spoils spoiled]
  rfl

/-! ## Errors by status -/

/-- The error of the api that a failure status tells. -/
def Presents (status : Nat) (e : Error) : Prop :=
  ∃ s, e = if status = 404 then .notFound s else .api s

theorem presents_failureOf (status : Nat) (text : String) :
    Presents status (failureOf status text) :=
  ⟨(statusOf status text).2, rfl⟩

theorem Presents.isNotFound_iff (h : Presents status e) : e.isNotFound = true ↔ status = 404 := by
  obtain ⟨s, rfl⟩ := h
  by_cases absent : status = 404
  · simp [absent, Error.isNotFound]
  · simp [absent, Error.isNotFound]

theorem not_presents_notUtf8 (status : Nat) (fault : Utf8.Fault) :
    ¬Presents status (.notUtf8 fault) := by
  rintro ⟨s, same⟩
  split at same <;> cases same

/-! ## Failure responses -/

/-- A failure response ends every call with an error, which is the one that its status tells if and
only if the body is a text. It is an absence at 404 and nowhere else, except that a body which is no
text hides an absence too. -/
theorem failure_presented (call : Calls d request) (tells : 400 ≤ status ∧ status ≤ 599)
    (frames : List Octets) (later : List Reply) :
    ∃ e, d.course (.response ⟨status, frames, none⟩ :: later) = ⟨[request], some (.error e)⟩ ∧
      (Presents status e ↔ Utf8.IsText frames.flatten) ∧
      ((e.isNotFound = true ↔ status = 404) ↔ Utf8.IsText frames.flatten ∨ status ≠ 404) ∧
      (¬Utf8.IsText frames.flatten →
        ∃ fault, Utf8.decode frames.flatten = .error fault ∧ e = .notUtf8 fault) := by
  cases read : Utf8.decode frames.flatten with
  | ok text =>
      have isText : Utf8.IsText frames.flatten := ⟨text, Utf8.decode_eq_ok_iff.1 read⟩
      have presents := presents_failureOf status text
      refine ⟨_, call.course_of_spoils (.failure read tells) later, ?_⟩
      simp [isText, presents, presents.isNotFound_iff]
  | error fault =>
      have noText := Utf8.exists_fault_iff.1 ⟨fault, read⟩
      refine ⟨_, call.course_of_spoils (.notText status read) later, ?_⟩
      simp [noText, not_presents_notUtf8, Error.isNotFound]

theorem made_groupList :
    Request.get? (discoveryUri ApiRoot.apis.name) = .ok ⟨"GET", .origin ⟨"/apis", none⟩, []⟩ := by
  rfl

/-- An absence with a text in two frames, one character between them. -/
theorem failure_presented_split :
    (400 ≤ 404 ∧ 404 ≤ 599) ∧ Calls groupList ⟨"GET", .origin ⟨"/apis", none⟩, []⟩ ∧
      ∃ e, groupList.course [.response ⟨404, [[0xC3], [0xA9]], none⟩] =
          ⟨[⟨"GET", .origin ⟨"/apis", none⟩, []⟩], some (.error e)⟩ ∧
        Presents 404 e ∧ e.isNotFound = true := by
  have call := Calls.groups made_groupList
  have tells : 400 ≤ 404 ∧ 404 ≤ 599 := by decide
  have isText : Utf8.IsText [[0xC3], [0xA9]].flatten := ⟨"é", Utf8.decode_eq_ok_iff.1 rfl⟩
  obtain ⟨e, ends, presents, absence, -⟩ := failure_presented call tells [[0xC3], [0xA9]] []
  exact ⟨tells, call, e, ends, presents.2 isText, (absence.2 (.inl isText)).2 rfl⟩

/-- An absence whose body is no text is presented neither as an absence nor as another error of the
api. -/
theorem absence_hidden :
    ∃ e, groupList.course [.response ⟨404, [[0xFF]], none⟩] =
        ⟨[⟨"GET", .origin ⟨"/apis", none⟩, []⟩], some (.error e)⟩ ∧
      (∀ s, e ≠ .notFound s ∧ e ≠ .api s) ∧ e.isNotFound = false := by
  have bad : Utf8.decode [[0xFF]].flatten = .error (.invalid 1 0) := by rfl
  refine ⟨_, (Calls.groups made_groupList).course_of_spoils (.notText 404 bad) [], ?_, rfl⟩
  intro s
  simp

end Client
end ApiCatalog
