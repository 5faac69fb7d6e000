import Mathlib.Tactic

/-!
# Trees given by parent edges

A vertex hangs below a root at some depth when following parent edges from it ends at the root.
Over an arbitrary vertex type, this file gives the facts that a mutable tree needs: depths are
unique and bounded by the number of vertices, removing a vertex without children keeps every
other depth, and a vertex may be hung below any vertex that does not depend on it.
-/

namespace Postgamma
namespace ParentTree

variable {ι : Type*}

/-- The vertex is `depth` parent edges away from the root. -/
inductive Depth (edge : ι → ι → Prop) (root : ι) : ℕ → ι → Prop where
  | root : Depth edge root 0 root
  | step {child parent : ι} {depth : ℕ} (up : edge child parent)
      (above : Depth edge root depth parent) : Depth edge root (depth + 1) child

/-- Each vertex has at most one parent, and the root has none. -/
structure Functional (edge : ι → ι → Prop) (root : ι) : Prop where
  /-- Two parents of a vertex are the same. -/
  unique : ∀ {child first second : ι}, edge child first → edge child second → first = second
  /-- The root has no parent. -/
  top : ∀ {parent : ι}, ¬edge root parent

/-- The edges of all vertices but one. -/
def without (edge : ι → ι → Prop) (removed : ι) (child parent : ι) : Prop :=
  edge child parent ∧ child ≠ removed

/-- The edges after one vertex has been hung below a new parent. -/
def graft (edge : ι → ι → Prop) (moved target : ι) (child parent : ι) : Prop :=
  (child = moved ∧ parent = target) ∨ without edge moved child parent

namespace Depth

variable {edge other : ι → ι → Prop} {root : ι}

theorem mono (inclusion : ∀ {child parent : ι}, edge child parent → other child parent)
    {depth : ℕ} {vertex : ι} (hangs : Depth edge root depth vertex) :
    Depth other root depth vertex := by
  induction hangs with
  | root => exact .root
  | step up _ induction => exact .step (inclusion up) induction

theorem unique (functional : Functional edge root) {first second : ℕ} {vertex : ι}
    (left : Depth edge root first vertex) (right : Depth edge root second vertex) :
    first = second := by
  induction left generalizing second with
  | root =>
      cases right with
      | root => rfl
      | step up _ => exact (functional.top up).elim
  | step up _ induction =>
      cases right with
      | root => exact (functional.top up).elim
      | step other above =>
          obtain rfl := functional.unique up other
          rw [induction above]

/-- The vertices on the way up, all at different depths. -/
theorem path (functional : Functional edge root) {depth : ℕ} {vertex : ι}
    (hangs : Depth edge root depth vertex) :
    ∃ path : List ι, path.length = depth + 1 ∧ path.Nodup ∧
      ∀ member ∈ path, (∃ level ≤ depth, Depth edge root level member) ∧
        (member = root ∨ ∃ parent, edge member parent) := by
  induction hangs with
  | root => exact ⟨[root], rfl, by simp, by simpa using Depth.root⟩
  | @step child parent depth up above induction =>
      obtain ⟨path, length, nodup, levels⟩ := induction
      have outside : child ∉ path := by
        intro member
        obtain ⟨⟨level, bound, hangs⟩, -⟩ := levels child member
        have deeper := unique functional hangs (.step up above)
        omega
      refine ⟨child :: path, by simp [length], List.nodup_cons.mpr ⟨outside, nodup⟩, ?_⟩
      intro member membership
      rcases List.mem_cons.mp membership with rfl | membership
      · exact ⟨⟨depth + 1, le_rfl, .step up above⟩, .inr ⟨parent, up⟩⟩
      · obtain ⟨⟨level, bound, hangs⟩, kind⟩ := levels member membership
        exact ⟨⟨level, by omega, hangs⟩, kind⟩

/-- A depth is smaller than the number of vertices. -/
theorem lt_length (functional : Functional edge root) {vertices : List ι}
    (rootMember : root ∈ vertices)
    (members : ∀ {child parent : ι}, edge child parent → child ∈ vertices)
    {depth : ℕ} {vertex : ι} (hangs : Depth edge root depth vertex) :
    depth < vertices.length := by
  obtain ⟨path, length, nodup, levels⟩ := hangs.path functional
  have inside : path ⊆ vertices := by
    intro member membership
    rcases (levels member membership).2 with rfl | ⟨parent, up⟩
    · exact rootMember
    · exact members up
  have bound := (List.subperm_of_subset nodup inside).length_le
  omega

theorem remove {removed : ι} (childless : ∀ {child : ι}, ¬edge child removed) {depth : ℕ}
    {vertex : ι} (hangs : Depth edge root depth vertex) (kept : vertex ≠ removed) :
    Depth (without edge removed) root depth vertex := by
  induction hangs with
  | root => exact .root
  | @step child parent _ up above induction =>
      refine .step ⟨up, kept⟩ (induction ?_)
      rintro rfl
      exact childless up

theorem regraft {moved target : ι} {level : ℕ}
    (independent : Depth (without edge moved) root level target) {depth : ℕ} {vertex : ι}
    (hangs : Depth edge root depth vertex) :
    ∃ depth, Depth (graft edge moved target) root depth vertex := by
  induction hangs with
  | root => exact ⟨0, .root⟩
  | @step child parent _ up above induction =>
      by_cases same : child = moved
      · exact ⟨level + 1, .step (.inl ⟨same, rfl⟩) (independent.mono .inr)⟩
      · obtain ⟨depth, hangs⟩ := induction
        exact ⟨depth + 1, .step (.inr ⟨up, same⟩) hangs⟩

end Depth

end ParentTree
end Postgamma
