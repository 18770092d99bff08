import HandleAlloc.Proofs.Arena.Placement
import HandleAlloc.Proofs.Arena.Reuse
/-!
# When the page behind the current one is used again

A page that a request turns to is empty, so that the request needs the least multiple of its
alignment that leaves room for a header, and its size. The test of a page that is there asks for
`margin` bytes more. A page that holds the request with so much to spare is used, however many pages
there may be. One that holds it with less to spare counts as too short: another page is put before
it, or the request is refused.
-/

namespace HandleAlloc

/-- How much longer than a request a page has to be for the test to let the request go there. -/
def margin (alignment : Nat) : Nat := min alignment headerSize - 1

theorem leastMultiple_headerSize {alignment : Nat} (hpower : alignment.isPowerOfTwo) :
    leastMultiple headerSize alignment = max headerSize alignment := by
  symm
  have hpos := Nat.pos_of_isPowerOfTwo hpower
  rcases Nat.le_total alignment headerSize with hle | hle
  · rw [Nat.max_eq_left hle]
    apply eq_leastMultiple _ (Nat.le_refl _) (by omega)
    exact Nat.mod_eq_zero_of_dvd (dvd_of_isPowerOfTwo_of_le hpower ⟨5, rfl⟩ hle)
  · have hheader : 0 < headerSize := by decide
    rw [Nat.max_eq_right hle]
    exact eq_leastMultiple (Nat.mod_self _) hle (by omega)

namespace Arena

open HandleAlloc.Action

variable {arena : Arena} {size alignment length here : Nat}

theorem required_eq (hpower : alignment.isPowerOfTwo) (size : Nat) :
    required size alignment = leastMultiple headerSize alignment + size + margin alignment := by
  have hpos := Nat.pos_of_isPowerOfTwo hpower
  rw [leastMultiple_headerSize hpower, required, margin, headerSize]
  omega

section Destination

variable (hhere : arena.pageLength? arena.cursor.page = some here)
  (hfull : here < leastMultiple (arena.cursor.top + headerSize) alignment + size)
  (hnext : arena.pageLength? (arena.cursor.page + 1) = some length)

include hnext in
theorem spare_iff_le : arena.spare (required size alignment) = true ↔
    required size alignment ≤ length := by
  rw [spare_iff, hnext]
  simp

include hhere hfull in
theorem destination_of_full (hpos : 0 < alignment) : arena.destination size alignment =
    match arena.refusal? size alignment with
    | some fault => .error fault
    | none => .ok ((arena.opened (required size alignment)).pages, ⟨arena.cursor.page + 1, 0⟩) := by
  refine (destination_eq hhere hpos).trans ?_
  exact if_neg (Nat.not_le_of_lt hfull)

include hhere hfull hnext in
theorem destination_of_spare (haddressable : arena.Addressable) (hpos : 0 < alignment)
    (hlong : required size alignment ≤ length) :
    arena.destination size alignment = .ok (arena.pages, ⟨arena.cursor.page + 1, 0⟩) := by
  have hword := Nat.lt_of_le_of_lt hlong (haddressable.lt hnext)
  have hspare := (spare_iff_le hnext).mpr hlong
  rw [destination_of_full hhere hfull hpos, refusal?_of_spare hword hspare, pages_opened,
    if_pos hspare]

include hhere hfull hnext in
theorem destination_of_short (hpos : 0 < alignment) (hshort : length < required size alignment)
    {place : List ByteArray × Cursor} (hplace : arena.destination size alignment = .ok place) :
    place = (arena.pages.insertIdx (arena.cursor.page + 1)
      (Memory.zeros (max arena.pageSize (required size alignment))), ⟨arena.cursor.page + 1, 0⟩) := by
  have hspare : ¬ arena.spare (required size alignment) = true := by
    rw [spare_iff_le hnext]
    exact Nat.not_le_of_lt hshort
  rw [destination_of_full hhere hfull hpos] at hplace
  split at hplace
  case h_1 => contradiction
  case h_2 =>
    rw [pages_opened, if_neg hspare] at hplace
    exact (Except.ok.inj hplace).symm

include hhere hfull hnext in
theorem destination_of_cap (hpos : 0 < alignment) (hshort : length < required size alignment)
    (hcap : arena.maxPages.any (· ≤ arena.addedPages.length) = true) :
    arena.destination size alignment = .error (.outOfMemory arena.name size) := by
  have hspare : ¬ arena.spare (required size alignment) = true := by
    rw [spare_iff_le hnext]
    exact Nat.not_le_of_lt hshort
  have hrefusal : arena.refusal? size alignment = some (.outOfMemory arena.name size) := by
    simp only [refusal?, if_neg hspare, if_pos hcap, ite_self]
  rw [destination_of_full hhere hfull hpos, hrefusal]

end Destination

/-- How a request ends for which the current page has no room, where the next page has a `length`. -/
structure MovesOn (arena : Arena) (length size alignment : Nat) (outcome : Outcome Arena Handle) :
    Prop where
  /-- The next page is used if the request leaves the margin there, and no page is added. -/
  reused : leastMultiple headerSize alignment + size + margin alignment ≤ length →
    ∃ handle, outcome.reply = .ok handle ∧
      Placed arena.pages ⟨arena.cursor.page + 1, 0⟩ size alignment handle outcome.state
  /-- Otherwise it is passed over, even if it holds the request: a page is put before it, -/
  passed : length < leastMultiple headerSize alignment + size + margin alignment →
    ∀ handle, outcome.reply = .ok handle →
      Placed
        (arena.pages.insertIdx (arena.cursor.page + 1) (Memory.zeros (max arena.pageSize
          (leastMultiple headerSize alignment + size + margin alignment))))
        ⟨arena.cursor.page + 1, 0⟩ size alignment handle outcome.state
  /-- or the request is refused if there are as many pages as there may be. -/
  refused : length < leastMultiple headerSize alignment + size + margin alignment →
    arena.maxPages.any (· ≤ arena.addedPages.length) = true →
      outcome = .failed (.outOfMemory arena.name size) arena

theorem alignedAlloc_movesOn (hsound : arena.Sound) (haddressable : arena.Addressable)
    (hpos : 0 < size) (hpower : alignment.isPowerOfTwo) (hword : alignment < wordSize)
    (hhere : arena.pageLength? arena.cursor.page = some here)
    (hfull : here < leastMultiple (arena.cursor.top + headerSize) alignment + size)
    (hnext : arena.pageLength? (arena.cursor.page + 1) = some length) :
    arena.MovesOn length size alignment (alignedAlloc size alignment arena) := by
  have harrives := alignedAlloc_arrives hsound haddressable hpos hpower hword
  generalize alignedAlloc size alignment arena = outcome at harrives ⊢
  have halignment := Nat.pos_of_isPowerOfTwo hpower
  constructor <;> rw [← required_eq hpower]
  case reused =>
    intro hlong
    rw [destination_of_spare hhere hfull hnext haddressable halignment hlong] at harrives
    cases harrives with
    | placed events hplaced => exact ⟨_, rfl, hplaced⟩
  case passed =>
    intro hshort handle hreply
    cases hplace : arena.destination size alignment with
    | error fault =>
      rw [hplace] at harrives
      cases harrives
      contradiction
    | ok place =>
      obtain rfl := destination_of_short hhere hfull hnext halignment hshort hplace
      rw [hplace] at harrives
      cases harrives with
      | placed events hplaced =>
        obtain rfl := Reply.ok.inj hreply
        exact hplaced
  case refused =>
    intro hshort hcap
    rw [destination_of_cap hhere hfull hnext halignment hshort hcap] at harrives
    cases harrives
    rfl

namespace Session

variable {σ : Type} {supply : Supply} {inlinePage : Nat} {settings : ArenaSettings} {state : σ}
  {start : Arena} {session : Session}

/-- Whatever was done with an arena, a request that the current page has no room for goes to a next
page that holds it with the margin to spare, and to no other one that is there. -/
theorem alignedAlloc_movesOn_of_reachable
    (hcreated : (create supply inlinePage settings state).reply = .ok start)
    (hinline : inlinePage < wordSize) (hreachable : Reachable start session) (hpos : 0 < size)
    (hpower : alignment.isPowerOfTwo) (hle : alignment ≤ 2 ^ 63)
    (hhere : session.arena.pageLength? session.arena.cursor.page = some here)
    (hfull : here < leastMultiple (session.arena.cursor.top + headerSize) alignment + size)
    (hnext : session.arena.pageLength? (session.arena.cursor.page + 1) = some length) :
    session.arena.MovesOn length size alignment
      (session.perform (.alignedAlloc size alignment)) := by
  obtain ⟨_, rfl⟩ := reply_create_eq_ok_iff.mp hcreated
  have hmoored := moored_fresh supply inlinePage settings
  have hsound : session.arena.Sound := (hreachable.moored hmoored).valid.covers
  have haddressable := hreachable.addressable hmoored (addressable_fresh supply hinline settings)
  rw [perform_eq]
  exact alignedAlloc_movesOn hsound haddressable hpos hpower (lt_wordSize_of_le_half hle) hhere
    hfull hnext

/-- A page of 87 bytes is used after a reset for 40 bytes at an alignment of 16, which end at 72 and
leave the 15 bytes that the test asks for. -/
theorem alignedAlloc_movesOn_after_reset :
    let start := fresh Supply.ample 64 ⟨"scratch", 64, some 1, true⟩
    let session := (next ⟨start, []⟩ (.call (.alignedAlloc 40 16))).next .reset
    session.arena.MovesOn 87 40 16 (session.perform (.alignedAlloc 40 16)) ∧
      (session.perform (.alignedAlloc 40 16)).reply = .ok ⟨1, 32⟩ := by
  intro start session
  have hcreated : (create Supply.ample 64 ⟨"scratch", 64, some 1, true⟩ ()).reply = .ok start :=
    reply_create_eq_ok_iff.mpr ⟨by decide, rfl⟩
  have hfirst : (perform ⟨start, []⟩ (.alignedAlloc 40 16)).reply ≠ .trap := by decide +kernel
  have hreachable : Reachable start session :=
    (Reachable.start.step (.call (.alignedAlloc 40 16)) hfirst).step .reset rfl
  exact ⟨alignedAlloc_movesOn_of_reachable hcreated (by decide) hreachable (by decide) (by decide)
    (by decide) (by decide +kernel : session.arena.pageLength? 0 = some 64) (by decide +kernel)
    (by decide +kernel), by decide +kernel⟩

/-- The same page would hold 50 bytes, which end at 82, and they are refused: the only page that may
be added is there. -/
theorem roomy_page_refused :
    let start := fresh Supply.ample 64 ⟨"scratch", 64, some 1, true⟩
    let session := (next ⟨start, []⟩ (.call (.alignedAlloc 40 16))).next .reset
    Reachable start session ∧ session.arena.cursor = ⟨0, 0⟩ ∧
      session.arena.pageLength? 0 = some 64 ∧ 64 < leastMultiple (0 + headerSize) 16 + 50 ∧
      session.arena.pageLength? 1 = some 87 ∧ leastMultiple headerSize 16 + 50 ≤ 87 ∧
      (session.perform (.alignedAlloc 50 16)).reply = .error (.outOfMemory "scratch" 50) := by
  intro start session
  have hfirst : (perform ⟨start, []⟩ (.alignedAlloc 40 16)).reply ≠ .trap := by decide +kernel
  exact ⟨(Reachable.start.step (.call (.alignedAlloc 40 16)) hfirst).step .reset rfl,
    by decide +kernel, by decide +kernel, by decide, by decide +kernel, by decide, by decide +kernel⟩

end Session

end Arena

end HandleAlloc
