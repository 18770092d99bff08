/-!
# Handles

An allocation is named by the page it lives in and the offset of its first usable byte
there. Handles are ordered by page, then by offset.
-/

namespace HandleAlloc

/-- The name of an allocation: the page it lives in and where its usable bytes start. -/
structure Handle where
  page : Nat
  offset : Nat
  deriving DecidableEq, Repr

namespace Handle

def text (handle : Handle) : String :=
  s!"Handle \x7b page: {handle.page}, offset: {handle.offset} \x7d"

/-- By page, then by offset. -/
def le (a b : Handle) : Bool :=
  a.page < b.page || (a.page == b.page && a.offset ≤ b.offset)

theorem le_iff {a b : Handle} :
    a.le b ↔ a.page < b.page ∨ a.page = b.page ∧ a.offset ≤ b.offset := by
  simp [le]

theorem le_total (a b : Handle) : (a.le b || b.le a) = true := by
  rw [Bool.or_eq_true, le_iff, le_iff]
  omega

theorem le_trans {a b c : Handle} (hab : a.le b) (hbc : b.le c) : a.le c := by
  rw [le_iff] at *
  omega

theorem le_antisymm {a b : Handle} (hab : a.le b) (hba : b.le a) : a = b := by
  rw [le_iff] at hab hba
  have hpage : a.page = b.page := by omega
  have hoffset : a.offset = b.offset := by omega
  cases a
  cases b
  simp_all

/-- The distinct handles of a list in ascending order. -/
def ordered (handles : List Handle) : List Handle :=
  (handles.mergeSort le).eraseDups

end Handle

end HandleAlloc
