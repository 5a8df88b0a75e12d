import ApiCatalog.Proofs.Client.FailureResponses

/-!
# What failures of the transport mean

A failure comes up as a chain of causes, in sending a request or from a body that breaks off. An
error of this library on top of the chain is handed back as it is when it comes up in sending.
Otherwise a timeout anywhere in the chain is what counts, in both places alike, and without one the
cause on top.

- `Client.IsOwn`, `Client.IsEngine`  : what is on top of the chain
- `Client.receive_failed_cases`      : a failure in sending is handed back or handed on
- `Client.transportError_cases`      : the errors of failures that are handed on
- `Client.message_transportError_ne` : none of them passes for its cause
- `Client.Sent`                      : what sending makes of a failure
- `Client.transport_meaning`         : sending and reading
-/

namespace ApiCatalog
namespace Client

open Http (Request)

variable {f : Http.Failure Error}

/-! ## Sending -/

/-- An error of this library, which has come back from below. -/
def IsOwn (f : Http.Failure Error) : Prop :=
  ∃ error, f.outer = .own error

def IsEngine (f : Http.Failure Error) : Prop :=
  ∃ text, f.outer = .engine text

theorem receive_failed_cases (f : Http.Failure Error) :
    (∃ error, f.outer = .own error ∧ receive (.failed f) = .error error) ∨
      ¬IsOwn f ∧ receive (.failed f) = .error (transportError f) := by
  by_cases own : IsOwn f
  · obtain ⟨error, outermost⟩ := own
    exact .inl ⟨error, outermost, by simp [receive, outermost]⟩
  · exact .inr ⟨own, receive_failed_of_foreign fun error outermost => own ⟨error, outermost⟩⟩

/-- A timeout comes before everything else, and the engine before the rest. -/
theorem transportError_cases (f : Http.Failure Error) :
    TimedOut f ∧ transportError f = .readTimeout f.text ∨
      ¬TimedOut f ∧ IsEngine f ∧ transportError f = .engine f.text ∨
      ¬TimedOut f ∧ ¬IsEngine f ∧ transportError f = .service f.text := by
  unfold transportError
  by_cases timeout : TimedOut f
  · exact .inl ⟨timeout, if_pos (timedOut_iff.2 timeout)⟩
  · refine .inr ?_
    rw [if_neg (mt timedOut_iff.1 timeout)]
    split
    · next text outermost =>
        have shown : f.text = text := by rw [Http.Failure.text, outermost, Http.Cause.text]
        exact .inl ⟨timeout, ⟨text, outermost⟩, by rw [shown]⟩
    · next other =>
        exact .inr ⟨timeout, fun ⟨text, outermost⟩ => other text outermost, rfl⟩

/-- An error that a failure is handed on with says more than its cause. -/
theorem message_transportError_ne (f : Http.Failure Error) :
    (transportError f).message ≠ f.text := by
  have longer (front : String) (some_char : front ≠ "") : front ++ f.text ≠ f.text := by
    intro same
    rw [← String.toList_inj, String.toList_append] at same
    exact some_char (by simpa using same)
  rcases transportError_cases f with ⟨-, sent⟩ | ⟨-, -, sent⟩ | ⟨-, -, sent⟩
  · rw [sent]
    exact longer "ReadTimeout: " (by decide)
  · rw [sent]
    exact longer "HyperError: " (by decide)
  · rw [sent]
    exact longer "ServiceError: " (by decide)

theorem text_of_own {error : Error} (outermost : f.outer = .own error) :
    f.text = error.message := by
  rw [Http.Failure.text, outermost, Http.Cause.text]

/-! ## Sending and reading -/

/-- What sending makes of a failure. An error of this library on top comes back as it is, and shows
what it shows; otherwise it is a timeout, a failure of the engine or one of the service, by what is
in the chain and on top of it. -/
structure Sent (f : Http.Failure Error) (e : Error) : Prop where
  own : f.outer = .own e ↔ IsOwn f
  message : e.message = f.text ↔ IsOwn f
  timeout : ¬IsOwn f → (e = .readTimeout f.text ↔ TimedOut f)
  engine : ¬IsOwn f → (e = .engine f.text ↔ ¬TimedOut f ∧ IsEngine f)
  service : ¬IsOwn f → (e = .service f.text ↔ ¬TimedOut f ∧ ¬IsEngine f)

theorem sent_own {error : Error} (outermost : f.outer = .own error) : Sent f error := by
  have own : IsOwn f := ⟨error, outermost⟩
  have shown := text_of_own outermost
  constructor <;> simp [own, outermost, shown]

theorem sent_transportError (foreign : ¬IsOwn f) : Sent f (transportError f) := by
  refine ⟨iff_of_false (fun outermost => foreign ⟨_, outermost⟩) foreign,
    iff_of_false (message_transportError_ne f) foreign, fun _ => ?_, fun _ => ?_, fun _ => ?_⟩
  -- there are three such errors, and a failure is in the case of one of them only
  all_goals
    rcases transportError_cases f with ⟨timeout, sent⟩ | ⟨calm, top, sent⟩ | ⟨calm, top, sent⟩
    · simp [sent, timeout]
    · simp [sent, calm, top]
    · simp [sent, calm, top]

theorem exists_sent (f : Http.Failure Error) : ∃ e, receive (.failed f) = .error e ∧ Sent f e := by
  rcases receive_failed_cases f with ⟨error, outermost, received⟩ | ⟨foreign, received⟩
  · exact ⟨error, received, sent_own outermost⟩
  · exact ⟨_, received, sent_transportError foreign⟩

theorem spoils_of_receive {e : Error} {reply : Reply} (received : receive reply = .error e) :
    Spoils reply e := by
  refine textOf_eq_error_iff.1 ?_
  rw [textOf, received]
  rfl

theorem bodyError_eq_readTimeout_iff : bodyError f = .readTimeout f.text ↔ TimedOut f := by
  by_cases timeout : TimedOut f
  · simp [timeout, bodyError_of_timedOut]
  · simp [timeout, bodyError_of_calm]

theorem bodyError_eq_service_iff : bodyError f = .service f.text ↔ ¬TimedOut f := by
  by_cases timeout : TimedOut f
  · simp [timeout, bodyError_of_timedOut]
  · simp [timeout, bodyError_of_calm]

/-- A failure ends every request in which it comes up, with one error in sending and with one in
reading, whatever came before it in the body. The first is told by the chain and its top, the second
by the chain alone, and unless an error of this library is on top, both are timeouts or neither
is. -/
theorem transport_meaning (f : Http.Failure Error) :
    ∃ sent read,
      (∀ request later, (send request).course (.failed f :: later) =
        ⟨[request], some (.error sent)⟩) ∧
      (∀ {α : Type} {d : Dialogue α} {request : Request}, Calls d request → ∀ later,
        d.course (.failed f :: later) = ⟨[request], some (.error sent)⟩ ∧
        ∀ status frames, d.course (.response ⟨status, frames, some f⟩ :: later) =
          ⟨[request], some (.error read)⟩) ∧
      Sent f sent ∧
      (read = .readTimeout f.text ↔ TimedOut f) ∧ (read = .service f.text ↔ ¬TimedOut f) ∧
      (¬IsOwn f → (sent = .readTimeout f.text ↔ read = .readTimeout f.text)) := by
  obtain ⟨e, received, sent⟩ := exists_sent f
  refine ⟨e, bodyError f, fun request later => ?_, fun call later => ⟨?_, fun status frames => ?_⟩,
    sent, bodyError_eq_readTimeout_iff, bodyError_eq_service_iff, fun foreign => ?_⟩
  · rw [(asks_send request).course_cons, received]
  · exact call.course_of_spoils (spoils_of_receive received) later
  · exact call.course_of_spoils (.broken status frames f) later
  · rw [sent.timeout foreign, bodyError_eq_readTimeout_iff]

/-- A timeout below an error of this library, which the engine has passed on. -/
theorem transport_meaning_engine :
    let f : Http.Failure Error := ⟨.engine "channel closed", [.own .tlsRequired, .timedOut "read"]⟩
    let request : Request := ⟨"GET", .origin ⟨"/apis", none⟩, []⟩
    Calls groupList request ∧ ¬IsOwn f ∧ TimedOut f ∧
      (send request).course [.failed f] = ⟨[request], some (.error (.readTimeout f.text))⟩ ∧
      groupList.course [.response ⟨200, [], some f⟩] =
        ⟨[request], some (.error (.readTimeout f.text))⟩ := by
  intro f request
  have foreign : ¬IsOwn f := nofun
  have timeout : TimedOut f := ⟨"read", by simp [f, Http.Failure.causes]⟩
  obtain ⟨sent, read, sends, calls, told, slow, -, -⟩ := transport_meaning f
  have call := Calls.groups made_groupList
  refine ⟨call, foreign, timeout, ?_, ?_⟩
  · rw [sends, (told.timeout foreign).2 timeout]
  · rw [(calls call []).2, slow.2 timeout]

end Client
end ApiCatalog
