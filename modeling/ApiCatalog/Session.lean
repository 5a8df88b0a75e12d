import ApiCatalog.Discovery

/-!
# Sessions

Callers that share one catalog. The first caller to arrive runs the discovery pass, the others
wait. A pass that completes is kept and settles everybody; one that fails settles its own caller
with the error, and the next one in line starts a pass of its own; one whose caller gives up is
forgotten.

- `Session.arrive`, `Session.reply`, `Session.abandon` : what can happen to a session
- `Session.conclude`                                   : the end of the running pass
- `Session.line`                                       : who is not through yet
-/

namespace ApiCatalog

/-- `running` is the caller whose pass is under way, with what is left of the pass. -/
structure Session (ι : Type) where
  kept : Option Catalog
  running : Option (ι × Dialogue Catalog)
  waiting : List ι

namespace Session

variable {ι : Type}

/-- A caller that is through, with the catalog or the error that it got. -/
abbrev Settled (ι : Type) := ι × Except Error Catalog

def fresh : Session ι :=
  ⟨none, none, []⟩

/-- The callers that are not through: the one that runs, then those that wait. -/
def line (s : Session ι) : List ι :=
  (s.running.map (·.1)).toList ++ s.waiting

/-! ## Who runs -/

/-- The next in line starts over. -/
def advance (pass : Dialogue Catalog) (s : Session ι) : Session ι :=
  match s.waiting with
  | [] => { s with running := none }
  | c :: rest => { s with running := some (c, pass), waiting := rest }

@[simp]
theorem line_advance (pass : Dialogue Catalog) (s : Session ι) :
    (s.advance pass).line = s.waiting := by
  unfold advance
  split <;> simp_all [line]

/-! ## Events -/

def arrive (pass : Dialogue Catalog) (s : Session ι) (c : ι) : Session ι × List (Settled ι) :=
  match s.kept, s.running with
  | some catalog, _ => (s, [(c, .ok catalog)])
  | none, none => ({ s with running := some (c, pass) }, [])
  | none, some _ => ({ s with waiting := s.waiting ++ [c] }, [])

/-- The running pass of `c` has ended. -/
def conclude (pass : Dialogue Catalog) (s : Session ι) (c : ι) (outcome : Except Error Catalog) :
    Session ι × List (Settled ι) :=
  match outcome with
  | .ok catalog =>
      (⟨some catalog, none, []⟩, (c, .ok catalog) :: s.waiting.map (·, .ok catalog))
  | .error e => (s.advance pass, [(c, .error e)])

/-- The running pass gets a reply. -/
def reply (pass : Dialogue Catalog) (s : Session ι) (r : Reply) : Session ι × List (Settled ι) :=
  match s.running with
  | none => (s, [])
  | some (c, d) =>
      match (d.resume r).ending? with
      | some outcome => s.conclude pass c outcome
      | none => ({ s with running := some (c, d.resume r) }, [])

/-- A caller gives up. -/
def abandon [DecidableEq ι] (pass : Dialogue Catalog) (s : Session ι) (c : ι) : Session ι :=
  let left := { s with waiting := s.waiting.filter (· ≠ c) }
  match s.running with
  | some (d, _) => if d = c then left.advance pass else left
  | none => left

theorem line_abandon [DecidableEq ι] (pass : Dialogue Catalog) (s : Session ι) (c : ι) :
    (s.abandon pass c).line = s.line.filter (· ≠ c) := by
  unfold abandon
  split
  · next d rest running =>
      by_cases h : d = c
      · rw [if_pos h, line_advance]
        simp [line, running, h]
      · rw [if_neg h]
        simp [line, running, h]
  · next running => simp [line, running]

/-- Several callers give up, one after another. -/
def abandonAll [DecidableEq ι] (pass : Dialogue Catalog) (s : Session ι) (cs : List ι) :
    Session ι :=
  cs.foldl (·.abandon pass) s

theorem line_abandonAll [DecidableEq ι] (pass : Dialogue Catalog) (s : Session ι) (cs : List ι) :
    (s.abandonAll pass cs).line = s.line.filter (· ∉ cs) := by
  unfold abandonAll
  induction cs generalizing s with
  | nil => exact (List.filter_eq_self.2 fun _ _ => by simp).symm
  | cons c rest ih =>
      rw [List.foldl_cons, ih, line_abandon, List.filter_filter]
      refine List.filter_congr fun d _ => ?_
      simp [Bool.and_comm]

end Session
end ApiCatalog
