/-!
# Cursors

An arena hands out its pages from a cursor. Setting the cursor back to an earlier one takes
back all that was handed out in between.
-/

namespace HandleAlloc

/-- Where the next allocation of an arena goes: a page and the first unused byte of it. -/
structure Cursor where
  page : Nat
  top : Nat
  deriving DecidableEq, Repr

/-- The cursor of an arena in which nothing is allocated. -/
def Cursor.start : Cursor := ⟨0, 0⟩

def Cursor.text (cursor : Cursor) : String :=
  s!"LinearState \x7b current_page: {cursor.page}, top: {cursor.top} \x7d"

end HandleAlloc
