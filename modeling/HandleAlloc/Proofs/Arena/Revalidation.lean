import HandleAlloc.Proofs.Arena.Discipline
import HandleAlloc.Proofs.Overlook
/-!
# Arenas that validate headers and arenas that do not

As with heaps, no call sees whether an arena validates headers (`revalidated`) that is made with the
handle of a live allocation. In a well-behaved run with scopes and resets, in which every handle passed
is live, the setting changes nothing.
-/

namespace HandleAlloc

namespace Arena

open HandleAlloc.Action

def revalidated (validate : Bool) (arena : Arena) : Arena := { arena with validate }

section Transitions

variable {arena : Arena} {validate : Bool} {handle target : Handle} {header old : Header}
  {size alignment offset newSize : Nat}

theorem updatePage_revalidated (index : Nat) (change : ByteArray → ByteArray) :
    (arena.revalidated validate).updatePage index change =
      (arena.updatePage index change).revalidated validate := by
  cases index <;> rfl

theorem bumped_revalidated : (arena.revalidated validate).bumped size alignment offset =
    (arena.bumped size alignment offset).revalidated validate := by
  simp only [bumped, withHeader, updatePage_revalidated]
  rfl

theorem spilled_revalidated : (arena.revalidated validate).spilled size alignment =
    (arena.spilled size alignment).revalidated validate := by
  rw [spilled, spilled, ← bumped_revalidated]
  rfl

theorem resized_revalidated : (arena.revalidated validate).resized handle old newSize =
    (arena.resized handle old newSize).revalidated validate := by
  simp only [resized, withHeader, updatePage_revalidated]
  rfl

theorem relocated_revalidated : (arena.revalidated validate).relocated handle old newSize =
    (arena.relocated handle old newSize).revalidated validate := by
  simp only [relocated, wiped, copied, spilled_revalidated, updatePage_revalidated]
  rfl

theorem freed_revalidated : (arena.revalidated validate).freed handle old =
    (arena.freed handle old).revalidated validate := by
  simp only [freed, wiped, updatePage_revalidated]
  rfl

end Transitions

section Calls

variable {arena : Arena} {validate : Bool} {handle : Handle} {old : Header} {size alignment : Nat}

theorem oblivious (validate : Bool) : Allocator.Oblivious (revalidated validate) where
  name_eq _ := rfl
  load_eq _ _ := rfl
  store_eq place position data arena := by
    change store place position data (arena.revalidated validate) =
      (store place position data arena).revalidated validate
    by_cases hfits : position + data.size ≤ place.size
    · rw [store, if_pos hfits, store, if_pos hfits]
      exact updatePage_revalidated _ _
    · rw [store, if_neg hfits, store, if_neg hfits]

theorem Sound.revalidated (hsound : arena.Sound) (validate : Bool) :
    (arena.revalidated validate).Sound := hsound

theorem header?_revalidated (validate : Bool) (hheader : arena.header? handle = some old)
    (hserves : old.Serves handle.offset size alignment) :
    (arena.revalidated validate).header? handle = some old := by
  obtain ⟨hdecoded, hstop⟩ := header?_eq_some_iff.mp hheader
  obtain ⟨page, hpage, hread⟩ := decoded?_eq_some_iff.mp hdecoded
  have hpages : (arena.revalidated validate).pages[handle.page]? = some page := hpage
  exact header?_eq_some_iff.mpr
    ⟨decoded?_eq_some_iff.mpr ⟨page, hpages, Header.read?_of_serves hread hserves⟩, hstop⟩

theorem alignedAlloc_overlooks (hsound : arena.Sound) (hword : alignment < wordSize) (size : Nat) :
    (alignedAlloc size alignment).Overlooks (revalidated validate) arena := by
  have hrun := alignedAlloc_run hsound hword size
  have hrun' := alignedAlloc_run (hsound.revalidated validate) hword size
  by_cases hpower : alignment.isPowerOfTwo
  case neg => exact .of_run (hrun.trans (if_pos hpower)) (hrun'.trans (if_pos hpower))
  replace hrun := hrun.trans (if_neg (not_not_intro hpower))
  replace hrun' := hrun'.trans (if_neg (not_not_intro hpower))
  by_cases hsize : size = 0
  case pos => exact .of_run (hrun.trans (if_pos hsize)) (hrun'.trans (if_pos hsize))
  replace hrun := hrun.trans (if_neg hsize)
  replace hrun' := hrun'.trans (if_neg hsize)
  have hrest : (arena.revalidated validate).rest = arena.rest := rfl
  have hrefusal : (arena.revalidated validate).refusal? size alignment =
    arena.refusal? size alignment := rfl
  rw [hrest] at hrun'
  cases hfit : arena.rest.place? size alignment with
  | some offset =>
    simp only [hfit, bumped_revalidated] at hrun hrun'
    exact .of_run hrun hrun'
  | none =>
    simp only [hfit, hrefusal] at hrun hrun'
    cases hcase : arena.refusal? size alignment with
    | some fault =>
      simp only [hcase] at hrun hrun'
      exact .of_run hrun hrun'
    | none =>
      simp only [hcase, spilled_revalidated] at hrun hrun'
      exact .of_run hrun hrun'

theorem header_overlooks (hheader : arena.header? handle = some old)
    (hother : (arena.revalidated validate).header? handle = some old) :
    (header handle).Overlooks (revalidated validate) arena := by
  rw [Overlooks, header_run, header_run, hheader, hother]

theorem region_overlooks (hheader : arena.header? handle = some old)
    (hother : (arena.revalidated validate).header? handle = some old) :
    (region handle).Overlooks (revalidated validate) arena := by
  rw [Overlooks, region_run, region_run, hheader, hother]

theorem free_overlooks (hheader : arena.header? handle = some old)
    (hother : (arena.revalidated validate).header? handle = some old) :
    (free handle).Overlooks (revalidated validate) arena := by
  have hrun := free_run handle arena
  have hrun' := free_run handle (arena.revalidated validate)
  simp only [hheader] at hrun
  simp only [hother, freed_revalidated] at hrun'
  by_cases htop : handle.stop old = arena.cursor
  · exact .of_run (hrun.trans (if_pos htop)) (hrun'.trans (if_pos htop))
  · exact .of_run (hrun.trans (if_neg htop)) (hrun'.trans (if_neg htop))

theorem relocate_overlooks {newSize : Nat} (hsound : arena.Sound)
    (hheader : arena.header? handle = some old)
    (hother : (arena.revalidated validate).header? handle = some old)
    (hserves : old.Serves handle.offset old.size old.alignment)
    (htop : handle.stop old = arena.cursor) (hpos : 0 < newSize)
    (hfits : arena.fits handle newSize = false) :
    (relocate handle old newSize).Overlooks (revalidated validate) arena := by
  obtain ⟨hdecoded, _⟩ := header?_eq_some_iff.mp hheader
  obtain ⟨hdecoded', _⟩ := header?_eq_some_iff.mp hother
  have hrun := relocate_run hsound hdecoded hserves htop hpos hfits
  have hrun' := relocate_run (hsound.revalidated validate) hdecoded' hserves htop hpos hfits
  have hrefusal : (arena.revalidated validate).refusal? newSize old.alignment =
    arena.refusal? newSize old.alignment := rfl
  rw [hrefusal] at hrun'
  cases hcase : arena.refusal? newSize old.alignment with
  | some fault =>
    simp only [hcase] at hrun hrun'
    exact .of_run hrun hrun'
  | none =>
    simp only [hcase, relocated_revalidated] at hrun hrun'
    exact .of_run hrun hrun'

theorem realloc_overlooks (hsound : arena.Sound) (hheader : arena.header? handle = some old)
    (hother : (arena.revalidated validate).header? handle = some old)
    (hserves : old.Serves handle.offset old.size old.alignment) (newSize : Nat) :
    (realloc handle newSize).Overlooks (revalidated validate) arena := by
  have hrun := realloc_run handle newSize arena
  have hrun' := realloc_run handle newSize (arena.revalidated validate)
  simp only [hheader] at hrun
  simp only [hother, resized_revalidated] at hrun'
  by_cases htop : handle.stop old = arena.cursor
  case neg => exact .of_run (hrun.trans (if_pos htop)) (hrun'.trans (if_pos htop))
  replace hrun := hrun.trans (if_neg (not_not_intro htop))
  replace hrun' := hrun'.trans (if_neg (not_not_intro htop))
  by_cases hzero : newSize = 0
  case pos => exact .of_run (hrun.trans (if_pos hzero)) (hrun'.trans (if_pos hzero))
  replace hrun := hrun.trans (if_neg hzero)
  replace hrun' := hrun'.trans (if_neg hzero)
  by_cases hsame : newSize = old.size
  case pos => exact .of_run (hrun.trans (if_pos hsame)) (hrun'.trans (if_pos hsame))
  replace hrun := hrun.trans (if_neg hsame)
  replace hrun' := hrun'.trans (if_neg hsame)
  by_cases hfits : arena.fits handle newSize = true
  case pos => exact .of_run (hrun.trans (if_pos hfits)) (hrun'.trans (if_pos hfits))
  rw [Overlooks, hrun.trans (if_neg hfits), hrun'.trans (if_neg hfits)]
  exact relocate_overlooks hsound hheader hother hserves htop (Nat.pos_of_ne_zero hzero)
    (Bool.not_eq_true _ ▸ hfits)

theorem overlooked (hsound : arena.Sound) (hheader : arena.header? handle = some old)
    (hserves : old.Serves handle.offset old.size old.alignment) :
    Allocator.Overlooked (revalidated validate) arena handle where
  header := header_overlooks hheader (header?_revalidated validate hheader hserves)
  region := region_overlooks hheader (header?_revalidated validate hheader hserves)
  realloc := realloc_overlooks hsound hheader (header?_revalidated validate hheader hserves) hserves
  free := free_overlooks hheader (header?_revalidated validate hheader hserves)

end Calls

def Step.handle? : Step → Option Handle
  | .call made => made.handle?
  | .enter | .leave | .reset | .supply _ => none

namespace Ledger

section Paired

variable {α : Type} {first : Arena} {ledger other : Ledger} {validate : Bool} {call : Call α}
  {step : Step}

def revalidated (validate : Bool) (ledger : Ledger) : Ledger :=
  { ledger with arena := ledger.arena.revalidated validate }

def Knows (ledger : Ledger) (step : Step) : Prop :=
  ∀ handle ∈ step.handle?, handle ∈ ledger.held.map Holding.handle

/-- No well-behaved call with a live handle sees which headers are acceptable. -/
theorem Stacked.overlooks (hstacked : ledger.Stacked) (hallows : ledger.Allows (.call call))
    (hknows : ledger.Knows (.call call)) :
    (call.run).Overlooks (Arena.revalidated validate) ledger.arena := by
  refine (oblivious validate).call call ?_ ?_ ?_
  · intro request hrequest
    exact alignedAlloc_overlooks hstacked.sound (hallows.1 request hrequest) _
  · intro request hrequest handle after events hrun
    have hsettles := alignedAlloc_settles hstacked.sound (hallows.1 request hrequest) request.1
    rw [show alignedAlloc request.1 request.2 ledger.arena = _ from hrun] at hsettles
    obtain ⟨header, hissued⟩ := hsettles.effect_of_ok
    exact region_overlooks hissued.header?_eq (header?_revalidated validate hissued.header?_eq
      hissued.serves)
  · intro handle hhandle
    obtain ⟨holding, hmem, rfl⟩ := List.mem_map.mp (hknows handle hhandle)
    exact overlooked hstacked.sound (hstacked.header?_eq hmem) (hstacked.proper hmem)

theorem Stacked.next_revalidated (hstacked : ledger.Stacked) (hallows : ledger.Allows step)
    (hknows : ledger.Knows step) :
    (ledger.revalidated validate).next step = (ledger.next step).revalidated validate := by
  cases step with
  | call call =>
    have hrun : call.run (ledger.arena.revalidated validate) = _ :=
      hstacked.overlooks hallows hknows
    simp only [Ledger.next, perform_eq, revalidated, hrun]
    cases (call.run ledger.arena).reply with
    | ok value => cases call <;> rfl
    | error fault => rfl
    | trap => rfl
  | enter => rfl
  | leave =>
    obtain ⟨frame, outer, houter⟩ := List.exists_cons_of_ne_nil hallows
    have hother : (ledger.revalidated validate).outer = frame :: outer := houter
    rw [next_leave houter, next_leave hother]
    rfl
  | reset | supply => rfl

/-- The same well-behaved steps on two arenas, each with a live handle if with any. -/
inductive Paired (first second : Arena) : Ledger → Ledger → Prop where
  | start : Paired first second ⟨first, [], []⟩ ⟨second, [], []⟩
  | step {ledger other : Ledger} (hpaired : Paired first second ledger other) (step : Step)
    (hallows : ledger.Allows step) (hknows : ledger.Knows step) :
    Paired first second (ledger.next step) (other.next step)

theorem Paired.eq_revalidated (hpaired : Paired first (first.revalidated validate) ledger other)
    (hfirst : Stacked ⟨first, [], []⟩) : ledger.Stacked ∧ other = ledger.revalidated validate := by
  induction hpaired with
  | start => exact ⟨hfirst, rfl⟩
  | step _ step hallows hknows ih =>
    obtain ⟨hstacked, rfl⟩ := ih
    exact ⟨hstacked.next hallows, hstacked.next_revalidated hallows hknows⟩

/-- Two arenas have the same pages and the same cursor, and the same allocations are live on them, in
scopes that return to the same cursors. They reply the same to the next call, and log the same. -/
structure Agree (ledger other : Ledger) : Prop where
  pages_eq : other.arena.pages = ledger.arena.pages
  cursor_eq : other.arena.cursor = ledger.arena.cursor
  live_eq : other.live = ledger.live
  outer_eq : other.outer = ledger.outer
  reply_eq : ∀ {α : Type} (call : Call α), ledger.Allows (.call call) → ledger.Knows (.call call) →
    (other.perform call).reply = (ledger.perform call).reply
  events_eq : ∀ {α : Type} (call : Call α), ledger.Allows (.call call) → ledger.Knows (.call call) →
    (other.perform call).events = (ledger.perform call).events

theorem Stacked.agree (hstacked : ledger.Stacked) (validate : Bool) :
    ledger.Agree (ledger.revalidated validate) := by
  have hrun {α : Type} (call : Call α) (hallows : ledger.Allows (.call call))
      (hknows : ledger.Knows (.call call)) :
      call.run (ledger.arena.revalidated validate) = _ := hstacked.overlooks hallows hknows
  refine ⟨rfl, rfl, rfl, rfl, ?_, ?_⟩
  · intro α call hallows hknows
    rw [perform_eq, perform_eq, revalidated, hrun call hallows hknows]
  · intro α call hallows hknows
    rw [perform_eq, perform_eq, revalidated, hrun call hallows hknows]

end Paired

end Ledger

end Arena

end HandleAlloc
