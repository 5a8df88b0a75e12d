import ApiCatalog.Proofs.Client.Verdicts
import ApiCatalog.Proofs.Dialogue.Course
import ApiCatalog.Proofs.Discovery.Pass

/-!
# The stages of a discovery pass

A pass goes through stages, one for each root and then one for each version of each group that it
keeps. A stage asks for one uri and passes when the reply brings what is due; the first stage that
does not pass decides how far the requests go and how it all ends.

- `Discovery.Stage`       : what is asked for
- `Stage.Passes`, `Stage.Fails`, `Stage.Waits` : what can become of a stage, by the answer to it
- `Stage.step`            : the course of one stage
- `Discovery.walk`        : the course of stages in turn
- `Discovery.FirstAt`     : the first stage that does not pass
- `Discovery.ending_walk_iff`, `Discovery.asked_walk` : how a walk ends, and what it asks
-/

namespace ApiCatalog
namespace Discovery

open Client (Garbles GarblesList Lists Spoils Tells documentOf listOf)
open Dialogue (Course)
open Http (Request)

/-! ## Stages -/

inductive Stage
  | versions (root : ApiRoot)
  | groups
  | listing (group : Group) (version : String)
  deriving DecidableEq, Repr

/-- A request for the document at a uri. -/
def asking (u : Uri) : Request :=
  ⟨"GET", u, []⟩

theorem get?_eq (text : String) :
    Request.get? text = ((Uri.parse text).map asking).mapError .badUri := by
  have method : Http.isMethod "GET" = true := by decide
  unfold Request.get? Request.make?
  rw [method]
  cases Uri.parse text <;> rfl

namespace Stage

def ofListing (l : Group × String) : Stage :=
  .listing l.1 l.2

/-- The text of the uri that a stage asks for. -/
def uri : Stage → String
  | .versions root => "/" ++ root.name
  | .groups => "/" ++ ApiRoot.apis.name
  | .listing group version => "/" ++ group.pathFor version

/-- A reply that brings what is due. At the empty version that is a list without entries. -/
def Accepts : Stage → Reply → Prop
  | .versions _, reply => ∃ doc : Wire.Versions, Tells reply doc
  | .groups, reply => ∃ doc : Wire.GroupList, Tells reply doc
  | .listing _ version, reply => ∃ list, Lists reply list ∧ (version = "" → list.resources = [])

/-- A reply that does not, and the error that it amounts to. -/
def Refuses : Stage → Reply → Error → Prop
  | .versions _, reply, e => Spoils reply e ∨ Garbles Wire.Versions reply e
  | .groups, reply, e => Spoils reply e ∨ Garbles Wire.GroupList reply e
  | .listing _ version, reply, e =>
      Spoils reply e ∨ GarblesList reply e ∨
        ∃ list, Lists reply list ∧ version = "" ∧ list.resources ≠ [] ∧ e = .naming .emptyVersion

/-- The stage has a uri and its reply brings what is due. -/
def Passes (stage : Stage) (answer : Option Reply) : Prop :=
  ∃ u reply, Uri.parse stage.uri = .ok u ∧ answer = some reply ∧ stage.Accepts reply

/-- The stage has no uri, or its reply is refused. -/
def Fails (e : Error) (stage : Stage) (answer : Option Reply) : Prop :=
  (∃ fault, Uri.parse stage.uri = .error fault ∧ e = .badRequest (.badUri fault)) ∨
    ∃ u reply, Uri.parse stage.uri = .ok u ∧ answer = some reply ∧ stage.Refuses reply e

/-- The stage has a uri, and no reply yet. -/
def Waits (stage : Stage) (answer : Option Reply) : Prop :=
  ∃ u, Uri.parse stage.uri = .ok u ∧ answer = none

/-! ## One stage -/

/-- What becomes of the reply to a stage. -/
def verdict : Stage → Reply → Except Error Unit
  | .versions _, reply => (documentOf Wire.Versions reply).map fun _ => ()
  | .groups, reply => (documentOf Wire.GroupList reply).map fun _ => ()
  | .listing _ version, reply =>
      match listOf reply with
      | .error e => .error e
      | .ok list =>
          if version = "" ∧ list.resources ≠ [] then .error (.naming .emptyVersion) else .ok ()

/-- The course of one stage. -/
def step (stage : Stage) (answer : Option Reply) : Course Unit :=
  match Uri.parse stage.uri with
  | .error fault => ⟨[], some (.error (.badRequest (.badUri fault)))⟩
  | .ok u => ⟨[asking u], answer.map stage.verdict⟩

variable {stage : Stage} {reply : Reply} {answer : Option Reply} {e : Error}

theorem map_eq_ok_iff {α : Type} {x : Except Error α} :
    (x.map fun _ => ()) = .ok () ↔ ∃ a, x = .ok a := by
  cases x <;> simp [Except.map]

theorem map_eq_error_iff {α : Type} {x : Except Error α} :
    (x.map fun _ => ()) = .error e ↔ x = .error e := by
  cases x <;> simp [Except.map]

theorem verdict_eq_ok_iff : stage.verdict reply = .ok () ↔ stage.Accepts reply := by
  cases stage with
  | versions root => simp [verdict, Accepts, map_eq_ok_iff, Client.documentOf_eq_ok_iff]
  | groups => simp [verdict, Accepts, map_eq_ok_iff, Client.documentOf_eq_ok_iff]
  | listing group version =>
      simp only [verdict, Accepts, ← Client.listOf_eq_ok_iff]
      cases listOf reply with
      | error e => simp
      | ok list => simp

theorem verdict_eq_error_iff : stage.verdict reply = .error e ↔ stage.Refuses reply e := by
  cases stage with
  | versions root => simp [verdict, Refuses, map_eq_error_iff, Client.documentOf_eq_error_iff]
  | groups => simp [verdict, Refuses, map_eq_error_iff, Client.documentOf_eq_error_iff]
  | listing group version =>
      simp only [verdict, Refuses, ← or_assoc, ← Client.listOf_eq_error_iff,
        ← Client.listOf_eq_ok_iff]
      cases listOf reply with
      | error e' => simp
      | ok list =>
          by_cases refused : version = "" ∧ list.resources ≠ []
          · simp [refused, eq_comm]
          · simp only [if_neg refused]
            grind

theorem ending_step_eq_ok_iff :
    (stage.step answer).ending = some (.ok ()) ↔ stage.Passes answer := by
  unfold step Passes
  cases Uri.parse stage.uri with
  | error fault => simp
  | ok u => simp [verdict_eq_ok_iff]

theorem ending_step_eq_error_iff :
    (stage.step answer).ending = some (.error e) ↔ stage.Fails e answer := by
  unfold step Fails
  cases Uri.parse stage.uri with
  | error fault => simp [eq_comm]
  | ok u => simp [verdict_eq_error_iff]

theorem ending_step_eq_none_iff : (stage.step answer).ending = none ↔ stage.Waits answer := by
  unfold step Waits
  cases Uri.parse stage.uri with
  | error fault => simp
  | ok u => simp

/-- A stage asks for its uri, or fails because it has none. -/
theorem asked_step (stage : Stage) (answer : Option Reply) :
    (∃ u, Uri.parse stage.uri = .ok u ∧ (stage.step answer).asked = [asking u]) ∨
      ∃ fault, Uri.parse stage.uri = .error fault ∧
        stage.step answer = ⟨[], some (.error (.badRequest (.badUri fault)))⟩ := by
  unfold step
  cases Uri.parse stage.uri with
  | error fault => exact .inr ⟨fault, rfl, rfl⟩
  | ok u => exact .inl ⟨u, rfl, rfl⟩

end Stage

/-! ## Stages in turn -/

/-- The course of stages, up to the first that does not pass. -/
def walk : List Stage → List Reply → Course Unit
  | [], _ => ⟨[], some (.ok ())⟩
  | stage :: rest, replies => (stage.step replies.head?).andThen fun _ _ => walk rest replies.tail

/-- Stage `i` is the first that does not pass, and `P` holds of it and its answer. -/
def FirstAt (P : Stage → Option Reply → Prop) (due : List Stage) (replies : List Reply) (i : Nat) :
    Prop :=
  ∃ stage, due[i]? = some stage ∧ P stage replies[i]? ∧
    ∀ j < i, ∀ earlier, due[j]? = some earlier → earlier.Passes replies[j]?

variable {stage : Stage} {rest due : List Stage} {replies : List Reply} {i : Nat}

theorem firstAt_zero {P : Stage → Option Reply → Prop} :
    FirstAt P (stage :: rest) replies 0 ↔ P stage replies.head? := by
  simp [FirstAt, List.head?_eq_getElem?]

theorem firstAt_succ {P : Stage → Option Reply → Prop} :
    FirstAt P (stage :: rest) replies (i + 1) ↔
      stage.Passes replies.head? ∧ FirstAt P rest replies.tail i := by
  simp only [FirstAt, List.head?_eq_getElem?, List.getElem?_cons_succ, List.getElem?_tail]
  constructor
  · rintro ⟨last, there, holds, before⟩
    refine ⟨before 0 (Nat.succ_pos i) stage rfl, last, there, holds, ?_⟩
    intro j lt earlier at_j
    exact before (j + 1) (Nat.succ_lt_succ lt) earlier at_j
  · rintro ⟨passes, last, there, holds, before⟩
    refine ⟨last, there, holds, ?_⟩
    intro j lt earlier at_j
    cases j with
    | zero =>
        cases at_j
        exact passes
    | succ k => exact before k (Nat.lt_of_succ_lt_succ lt) earlier at_j

/-! ## Ends -/

theorem ending_walk_of_passes (passes : stage.Passes replies.head?) :
    (walk (stage :: rest) replies).ending = (walk rest replies.tail).ending := by
  simp [walk, Course.andThen, Stage.ending_step_eq_ok_iff.2 passes]

/-- A stage that does not pass is the last one. -/
theorem walk_of_not_passes (stops : ¬stage.Passes replies.head?) :
    walk (stage :: rest) replies = stage.step replies.head? := by
  rw [← Stage.ending_step_eq_ok_iff] at stops
  unfold walk Course.andThen
  rcases course : stage.step replies.head? with ⟨asked, _ | (e | x)⟩
  · rfl
  · rfl
  · simp [course] at stops

/-- A walk that does not come through ends as the first stage does that does not pass. -/
theorem ending_walk_iff {o : Option (Except Error Unit)} (stops : o ≠ some (.ok ())) :
    (walk due replies).ending = o ↔
      ∃ i, FirstAt (fun stage answer => (stage.step answer).ending = o) due replies i := by
  -- a stage that passes moves the place of the first other one by one, any other is that place
  induction due generalizing replies with
  | nil => simp [walk, FirstAt, Ne.symm stops]
  | cons stage rest ih =>
      by_cases passes : stage.Passes replies.head?
      · have ends := Stage.ending_step_eq_ok_iff.2 passes
        rw [ending_walk_of_passes passes, ih]
        constructor
        · rintro ⟨i, first⟩
          exact ⟨i + 1, firstAt_succ.2 ⟨passes, first⟩⟩
        · rintro ⟨i, first⟩
          cases i with
          | zero => exact absurd ((firstAt_zero.1 first).symm.trans ends) stops
          | succ i => exact ⟨i, (firstAt_succ.1 first).2⟩
      · rw [walk_of_not_passes passes]
        constructor
        · intro ends
          exact ⟨0, firstAt_zero.2 ends⟩
        · rintro ⟨i, first⟩
          cases i with
          | zero => exact firstAt_zero.1 first
          | succ i => exact absurd (firstAt_succ.1 first).1 passes

theorem ending_walk_eq_error_iff {e : Error} :
    (walk due replies).ending = some (.error e) ↔ ∃ i, FirstAt (Stage.Fails e) due replies i := by
  rw [ending_walk_iff (by simp)]
  simp only [Stage.ending_step_eq_error_iff]

theorem ending_walk_eq_none_iff :
    (walk due replies).ending = none ↔ ∃ i, FirstAt Stage.Waits due replies i := by
  rw [ending_walk_iff (by simp)]
  simp only [Stage.ending_step_eq_none_iff]

/-- A walk comes through when every stage passes. -/
theorem ending_walk_eq_ok_iff :
    (walk due replies).ending = some (.ok ()) ↔
      ∀ (i : Nat) (stage : Stage), due[i]? = some stage → stage.Passes replies[i]? := by
  induction due generalizing replies with
  | nil => simp [walk]
  | cons stage rest ih =>
      by_cases passes : stage.Passes replies.head?
      · rw [ending_walk_of_passes passes, ih]
        constructor
        · intro all i earlier at_i
          cases i with
          | zero =>
              cases at_i
              simpa [List.head?_eq_getElem?] using passes
          | succ i => simpa [List.getElem?_tail] using all i earlier at_i
        · intro all i later at_i
          simpa [List.getElem?_tail] using all (i + 1) later at_i
      · rw [walk_of_not_passes passes, Stage.ending_step_eq_ok_iff]
        constructor
        · intro absurd_passes
          exact absurd absurd_passes passes
        · intro all
          simpa [List.head?_eq_getElem?] using all 0 stage rfl

/-! ## Requests -/

theorem asked_walk_of_passes (passes : stage.Passes replies.head?) (rest : List Stage) :
    ∃ u, Uri.parse stage.uri = .ok u ∧
      (walk (stage :: rest) replies).asked = asking u :: (walk rest replies.tail).asked := by
  have ends := Stage.ending_step_eq_ok_iff.2 passes
  rcases stage.asked_step replies.head? with ⟨u, made, asked⟩ | ⟨fault, -, fails⟩
  · exact ⟨u, made, by simp [walk, Course.andThen, ends, asked]⟩
  · simp [fails] at ends

/-- The requests are for the uris that are due, from the first on. -/
theorem asked_walk (due : List Stage) (replies : List Reply) :
    ∃ uris : List Uri, (walk due replies).asked = uris.map asking ∧
      uris.map .ok <+: due.map (Uri.parse ·.uri) := by
  induction due generalizing replies with
  | nil => exact ⟨[], rfl, List.nil_prefix⟩
  | cons stage rest ih =>
      by_cases passes : stage.Passes replies.head?
      · rcases asked_walk_of_passes passes rest with ⟨u, made, asked⟩
        rcases ih replies.tail with ⟨uris, later, among⟩
        refine ⟨u :: uris, by simp [asked, later], ?_⟩
        simpa [made] using among
      · rw [walk_of_not_passes passes]
        rcases stage.asked_step replies.head? with ⟨u, made, asked⟩ | ⟨fault, -, fails⟩
        · exact ⟨[u], asked, by simp [made]⟩
        · exact ⟨[], by simp [fails], List.nil_prefix⟩

/-- A walk that comes through has asked for everything. -/
theorem length_asked_walk (through : (walk due replies).ending = some (.ok ())) :
    (walk due replies).asked.length = due.length := by
  induction due generalizing replies with
  | nil => rfl
  | cons stage rest ih =>
      have passes : stage.Passes replies.head? := by
        simpa [List.head?_eq_getElem?] using ending_walk_eq_ok_iff.1 through 0 stage rfl
      rcases asked_walk_of_passes passes rest with ⟨u, -, asked⟩
      rw [ending_walk_of_passes passes] at through
      simp [asked, ih through]

/-- Nothing is asked behind the first stage that does not pass. -/
theorem length_asked_walk_of_firstAt {P : Stage → Option Reply → Prop}
    (stops : ∀ stage answer, P stage answer → ¬stage.Passes answer)
    (first : FirstAt P due replies i) (there : due[i]? = some stage) :
    (walk due replies).asked.length = i + (stage.step replies[i]?).asked.length := by
  induction due generalizing replies i with
  | nil => cases there
  | cons head rest ih =>
      cases i with
      | zero =>
          cases there
          rw [walk_of_not_passes (stops _ _ (firstAt_zero.1 first)), List.head?_eq_getElem?]
          simp
      | succ i =>
          rcases firstAt_succ.1 first with ⟨passes, first⟩
          rcases asked_walk_of_passes passes rest with ⟨u, -, asked⟩
          have later := ih first there
          rw [List.getElem?_tail] at later
          simp only [asked, List.length_cons, later]
          omega

end Discovery
end ApiCatalog
