import ApiCatalog.Proofs.Dialogue.Exchange

/-!
# Services that answer by the uri

A service may keep a state and report events of its own, and still give every uri the same answer
whenever it is asked. How a dialogue with it ends is then a matter of the exchanges alone: those of
the dialogue whose replies are these answers.

- `Dialogue.ByUri`        : what a service replies, as a function of the uri
- `Dialogue.Answered`     : exchanges with such a service
- `Dialogue.ended?_iff`   : how a dialogue with it ends
- `Dialogue.outcome_congr`: services that answer the same where they are asked
-/

namespace ApiCatalog
namespace Dialogue

variable {α σ σ' : Type}

/-- What the service replies to a request is the answer to its uri. -/
def ByUri (serve : Service σ) (answer : Uri → Option Reply) : Prop :=
  ∀ s request, (serve s request).2.2 = answer request.uri

/-- Every reply is the answer to the uri of its request. -/
def Answered (answer : Uri → Option Reply) (log : List Exchange) : Prop :=
  ∀ x ∈ log, answer x.1.uri = some x.2

variable {serve : Service σ} {serve' : Service σ'} {answer answer' : Uri → Option Reply}

theorem answered_heard (h : ByUri serve answer) (d : Dialogue α) (s : σ) :
    Answered answer (d.heard serve s) := by
  induction d generalizing s with
  | done x => exact fun _ mem => absurd mem List.not_mem_nil
  | failed e => exact fun _ mem => absurd mem List.not_mem_nil
  | report event next ih => exact ih s
  | ask request next ih =>
      have answers := h s request
      unfold heard
      rcases given : serve s request with ⟨s', events, _ | reply⟩
      · exact fun _ mem => absurd mem List.not_mem_nil
      · rw [given] at answers
        intro x mem
        rcases List.mem_cons.1 mem with rfl | later
        · exact answers.symm
        · exact ih reply s' x later

/-- A dialogue that comes to an end along such exchanges comes to it with the service, from every
state of it. -/
theorem ended?_of_answered (h : ByUri serve answer) {d : Dialogue α} {log : List Exchange}
    {o : Except Error α} (ends : d.result? log = some o) (answered : Answered answer log) (s : σ) :
    (d.against serve s).outcome.ended? = some o := by
  -- the service may be in another state after every request, so the state is not fixed
  induction d generalizing log s with
  | done x =>
      have ended : (Dialogue.done x : Dialogue α).ending? = some (.ok x) := rfl
      rw [((result?_of_ending? ended).1 ends).2]
      rfl
  | failed e =>
      have ended : (Dialogue.failed e : Dialogue α).ending? = some (.error e) := rfl
      rw [((result?_of_ending? ended).1 ends).2]
      rfl
  | report event next ih =>
      rw [result?_report] at ends
      exact ih ends answered s
  | ask request next ih =>
      rcases result?_ask.1 ends with ⟨reply, rest, rfl, there⟩
      have first : answer request.uri = some reply := answered _ List.mem_cons_self
      have answers := h s request
      unfold against
      rcases given : serve s request with ⟨s', events, replied⟩
      rw [first, given] at answers
      cases answers
      exact ih reply there (fun x mem => answered x (List.mem_cons_of_mem _ mem)) s'

/-- A dialogue with a service that answers by the uri ends as it does along some exchanges in which
every reply is such an answer. -/
theorem ended?_iff (h : ByUri serve answer) {d : Dialogue α} {s : σ} {o : Except Error α} :
    (d.against serve s).outcome.ended? = some o ↔
      ∃ log, d.result? log = some o ∧ Answered answer log := by
  constructor
  · intro ended
    exact ⟨d.heard serve s, by rw [result?_heard, ended], answered_heard h d s⟩
  · rintro ⟨log, ends, answered⟩
    exact ended?_of_answered h ends answered s

theorem Outcome.eq_of_ended? {a b : Outcome α} (h : a.ended? = b.ended?) : a = b := by
  cases a <;> cases b <;> simp [Outcome.ended?] at h <;> simp [h]

theorem Outcome.ended?_eq_ok_iff {a : Outcome α} {x : α} :
    a.ended? = some (.ok x) ↔ a = .done x := by
  cases a <;> simp [Outcome.ended?]

/-- Two services that give the same answers wherever the dialogue comes to an end with either of
them lead it to the same end. -/
theorem outcome_congr (h : ByUri serve answer) (h' : ByUri serve' answer') {d : Dialogue α}
    (there : ∀ log o, d.result? log = some o → Answered answer log → Answered answer' log)
    (back : ∀ log o, d.result? log = some o → Answered answer' log → Answered answer log)
    (s : σ) (s' : σ') : (d.against serve s).outcome = (d.against serve' s').outcome := by
  apply Outcome.eq_of_ended?
  refine Option.ext fun o => ?_
  rw [ended?_iff h, ended?_iff h']
  constructor
  · rintro ⟨log, ends, answered⟩
    exact ⟨log, ends, there log o ends answered⟩
  · rintro ⟨log, ends, answered⟩
    exact ⟨log, ends, back log o ends answered⟩

end Dialogue
end ApiCatalog
