import ApiCatalog.Key

/-!
# Endpoints

A resource collection that a cluster serves: its key, the kind it holds, whether it lives in
namespaces, and its capabilities in strictly increasing order.
-/

namespace ApiCatalog

structure Endpoint where
  key : Key
  kind : String
  namespaced : Bool
  capabilities : List String
  deriving DecidableEq, Repr

namespace Endpoint

/-! ## Capabilities -/

/-- Adds a text to an increasing list at its place, unless it is there already. -/
def insertText (x : String) : List String → List String
  | [] => [x]
  | y :: ys => if x < y then x :: y :: ys else if x = y then y :: ys else y :: insertText x ys

theorem mem_insertText {x y : String} {ys : List String} :
    y ∈ insertText x ys ↔ y = x ∨ y ∈ ys := by
  induction ys with
  | nil => simp [insertText]
  | cons z zs ih =>
      unfold insertText
      split
      · simp
      · split
        · rename_i same
          simp [same]
        · simp [ih]
          grind

theorem pairwise_insertText {x : String} {ys : List String} (h : ys.Pairwise (· < ·)) :
    (insertText x ys).Pairwise (· < ·) := by
  induction ys with
  | nil => simp [insertText]
  | cons z zs ih =>
      have ⟨first, later⟩ := List.pairwise_cons.1 h
      unfold insertText
      split
      · rename_i lt
        refine List.pairwise_cons.2 ⟨?_, h⟩
        intro y mem
        rcases List.mem_cons.1 mem with rfl | mem
        · exact lt
        · exact String.lt_trans lt (first y mem)
      · split
        · exact h
        · refine List.pairwise_cons.2 ⟨?_, ih later⟩
          intro y mem
          rcases mem_insertText.1 mem with rfl | mem
          · -- neither before nor equal, so after
            grind
          · exact first y mem

def addCapability (e : Endpoint) (c : String) : Endpoint :=
  { e with capabilities := insertText c e.capabilities }

def supports (e : Endpoint) (c : String) : Bool :=
  e.capabilities.contains c

/-! ## Written forms -/

def path (e : Endpoint) : String :=
  "/" ++ e.key.path

def apiVersion (e : Endpoint) : String :=
  e.key.apiVersion

open Json in
def toValue (e : Endpoint) : Value :=
  .object (e.key.members ++ [("kind", .string e.kind), ("namespaced", .boolean e.namespaced),
    ("capabilities", Wire.strings e.capabilities)])

end Endpoint
end ApiCatalog
