import HandleAlloc.Proofs.Call
import HandleAlloc.Proofs.Scope
import HandleAlloc.Settings.Document
import HandleAlloc.Suite
/-!
# One log line for each failure

A call that fails logs its failure once, and one that succeeds logs none, whatever it tried on the way
(`Action.Accounts`). An action that is put together from actions like that is one itself, as long as
what is cleaned up after a fault logs no failure of its own. Every call is put together so.
-/

namespace HandleAlloc

/-- The fields of the log lines of the highest level. -/
def errorFields (events : List Event) : List (List (String × FieldValue)) :=
  (events.filter (·.level = .error)).map Event.fields

@[simp] theorem errorFields_nil : errorFields [] = [] := rfl

theorem errorFields_append (events later : List Event) :
    errorFields (events ++ later) = errorFields events ++ errorFields later := by
  rw [errorFields, List.filter_append, List.map_append, errorFields, errorFields]

/-- A fault is logged as one error line, which has the text of the fault; if there is none, no error is
logged. -/
def Outcome.Accounted {σ α : Type} (outcome : Outcome σ α) : Prop :=
  match outcome.reply with
  | .ok _ => errorFields outcome.events = []
  | .error fault => errorFields outcome.events = [[("error", .text fault.message)]]
  | .trap => True

namespace Action

section Accounts

variable {σ τ α β : Type}

/-- From whatever state it starts, the action logs each fault once that it replies with. -/
def Accounts (action : Action σ α) : Prop := ∀ state, (action state).Accounted

def Silent (action : Action σ α) : Prop := ∀ state, errorFields (action state).events = []

theorem accounts_pure (value : α) : (pure value : Action σ α).Accounts := fun _ => rfl

theorem accounts_get : (get : Action σ σ).Accounts := fun _ => rfl

theorem accounts_modify (change : σ → σ) : (modify change : Action σ Unit).Accounts := fun _ => rfl

theorem accounts_fail (fault : Fault) : (fail fault : Action σ α).Accounts := fun _ => rfl

theorem accounts_emit {event : Event} (hlevel : event.level ≠ .error) :
    (emit event : Action σ Unit).Accounts := by
  intro state
  rw [Outcome.Accounted, emit_run, errorFields, List.filter_cons_of_neg (by simpa using hlevel)]
  rfl

theorem accounts_require (condition : Prop) [Decidable condition] :
    (require condition : Action σ Unit).Accounts := by
  unfold require
  split
  · exact accounts_pure ()
  · exact fun _ => trivial

theorem accounts_demand (value? : Option α) : (demand value? : Action σ α).Accounts := by
  cases value? with
  | some value => exact accounts_pure value
  | none => exact fun _ => trivial

theorem Accounts.bind {first : Action σ α} {next : α → Action σ β} (hfirst : first.Accounts)
    (hnext : ∀ value, (next value).Accounts) : (first >>= next).Accounts := by
  intro state
  have hlogged := hfirst state
  rw [bind_run]
  rcases hrun : first state with ⟨reply, middle, events⟩
  rw [hrun] at hlogged
  cases reply with
  | ok value =>
    have hlater := hnext value middle
    simp only [Outcome.Accounted] at hlogged hlater ⊢
    simpa only [errorFields_append, hlogged, List.nil_append] using hlater
  | error fault => exact hlogged
  | trap => trivial

theorem accounts_word (n : Nat) : (word n : Action σ Nat).Accounts :=
  (accounts_require _).bind fun _ => accounts_pure n

theorem accounts_minus (a b : Nat) : (minus a b : Action σ Nat).Accounts :=
  (accounts_require _).bind fun _ => accounts_pure _

theorem Accounts.onFault {action : Action σ α} {cleanup : Action σ Unit} (haction : action.Accounts)
    (hcleanup : cleanup.Silent) : (action.onFault cleanup).Accounts := by
  intro state
  have hlogged := haction state
  unfold Action.onFault
  rcases hrun : action state with ⟨reply, middle, events⟩
  rw [hrun] at hlogged
  cases reply with
  | ok value => exact hlogged
  | error fault =>
    simp only [Outcome.Accounted] at hlogged ⊢
    rw [errorFields_append, hcleanup middle, List.append_nil, hlogged]
  | trap => trivial

theorem Accounts.within {action : Action σ α} (haction : action.Accounts) (part : τ → σ)
    (replace : σ → τ → τ) : (action.within part replace).Accounts :=
  fun whole => haction (part whole)

theorem accounts_checkRequest (allocator : String) (size alignment : Nat) :
    (checkRequest allocator size alignment : Action σ Unit).Accounts := by
  unfold checkRequest
  split
  · exact accounts_fail _
  · split
    · exact accounts_fail _
    · exact accounts_pure ()

end Accounts

end Action

open HandleAlloc.Action

/-! ## Calls that every allocator has -/

namespace Allocator

section Accounts

variable {σ α : Type} [Allocator σ]

/-- The calls that the allocator supplies log each fault once. -/
structure Accounts (σ : Type) [Allocator σ] : Prop where
  alignedAlloc : ∀ size alignment, (alignedAlloc size alignment : Action σ Handle).Accounts
  realloc : ∀ handle newSize, (realloc handle newSize : Action σ Handle).Accounts
  free : ∀ handle, (free handle : Action σ Unit).Accounts
  header : ∀ handle, (header handle : Action σ Header).Accounts
  region : ∀ handle, (region handle : Action σ Region).Accounts

theorem Accounts.bytes (haccounts : Accounts σ) (handle : Handle) :
    (bytes handle : Action σ ByteArray).Accounts :=
  (haccounts.region handle).bind fun _ => accounts_get.bind fun _ => accounts_pure _

theorem Accounts.call (haccounts : Accounts σ) (call : Call α) :
    (call.run : Action σ α).Accounts := by
  cases call with
  | alignedAlloc size alignment => exact haccounts.alignedAlloc size alignment
  | alloc size => exact haccounts.alignedAlloc size defaultAlignment
  | allocZero size =>
    refine (haccounts.alignedAlloc size defaultAlignment).bind fun handle => ?_
    exact (haccounts.region handle).bind fun _ => (accounts_modify _).bind fun _ => accounts_pure _
  | construct value =>
    refine (haccounts.alignedAlloc _ defaultAlignment).bind fun handle => ?_
    refine (haccounts.region handle).bind fun _ => (accounts_require _).bind fun _ => ?_
    exact (accounts_modify _).bind fun _ => accounts_pure _
  | realloc handle newSize => exact haccounts.realloc handle newSize
  | free handle => exact haccounts.free handle
  | header handle => exact haccounts.header handle
  | bytes handle => exact haccounts.bytes handle
  | overwrite handle position data =>
    refine (haccounts.region handle).bind fun _ => ?_
    exact (accounts_modify _).bind fun _ => accounts_pure _
  | read handle =>
    refine (haccounts.bytes handle).bind fun contents => ?_
    split
    · exact accounts_pure _
    · exact accounts_get.bind fun _ => accounts_fail _

end Accounts

end Allocator

/-! ## Heaps -/

namespace Heap

section Accounts

variable {handle : Handle} {old : Header} {size alignment newSize : Nat}

theorem accounts_create {σ : Type} (supply : Supply) (settings : HeapSettings) :
    (create supply settings : Action σ Heap).Accounts := by
  unfold create
  simp only
  split
  · exact accounts_fail _
  · split
    · exact accounts_fail _
    · exact (accounts_emit (by simp [Event.level])).bind fun _ => accounts_pure _

theorem accounts_header (handle : Handle) : (header handle).Accounts := by
  refine accounts_get.bind fun heap => ?_
  cases heap.header? handle with
  | some header => exact accounts_pure header
  | none => exact accounts_fail _

theorem accounts_storeHeader (offset : Nat) (header : Header) :
    (storeHeader offset header).Accounts :=
  accounts_get.bind fun _ => (accounts_require _).bind fun _ => accounts_modify _

theorem accounts_clearHeader (offset : Nat) : (clearHeader offset).Accounts :=
  accounts_get.bind fun _ => (accounts_require _).bind fun _ => accounts_modify _

theorem accounts_move (start stop target : Nat) : (move start stop target).Accounts :=
  accounts_get.bind fun _ => (accounts_require _).bind fun _ => accounts_modify _

theorem accounts_claim (fit : Fit) (size alignment : Nat) : (claim fit size alignment).Accounts := by
  refine (accounts_word _).bind fun stop => accounts_get.bind fun _ => ?_
  refine (accounts_require _).bind fun _ => accounts_get.bind fun _ => ?_
  refine (accounts_demand _).bind fun span => accounts_get.bind fun _ => ?_
  exact (accounts_word _).bind fun used => (accounts_modify _).bind fun _ => accounts_pure _

theorem accounts_alignedAlloc (size alignment : Nat) : (alignedAlloc size alignment).Accounts := by
  refine accounts_get.bind fun _ => (accounts_checkRequest _ _ _).bind fun _ => ?_
  refine accounts_get.bind fun heap => ?_
  cases heap.blocks.bestFit? size alignment with
  | none => exact accounts_fail _
  | some fit =>
    refine (accounts_claim fit size alignment).bind fun header => ?_
    refine (accounts_storeHeader _ _).bind fun _ => ?_
    exact (accounts_emit (by simp [Event.level])).bind fun _ => accounts_pure _

theorem accounts_shrink (handle : Handle) (old : Header) (newSize : Nat) :
    (shrink handle old newSize).Accounts := by
  refine accounts_get.bind fun heap => ?_
  cases heap.blocks.giveTail? (handle.offset + old.size) (old.size - newSize) with
  | none => exact accounts_pure ()
  | some blocks =>
    refine accounts_get.bind fun _ => (accounts_minus _ _).bind fun used => ?_
    exact (accounts_modify _).bind fun _ => accounts_storeHeader _ _

theorem accounts_grow (handle : Handle) (old : Header) (newSize : Nat) :
    (grow handle old newSize).Accounts := by
  refine accounts_get.bind fun heap => ?_
  cases heap.blocks.takeTail? (handle.offset + old.size) (newSize - old.size) with
  | none => exact accounts_pure false
  | some taken =>
    refine accounts_get.bind fun _ => (accounts_word _).bind fun used => ?_
    refine (accounts_modify _).bind fun _ => (accounts_storeHeader _ _).bind fun _ => ?_
    exact accounts_pure true

/-- The search that finds no place is undone before it fails. -/
theorem accounts_relocate (handle : Handle) (old : Header) (newSize : Nat) :
    (relocate handle old newSize).Accounts := by
  refine accounts_get.bind fun _ => accounts_get.bind fun _ => ?_
  refine (accounts_minus _ _).bind fun span => (accounts_minus _ _).bind fun rest => ?_
  refine accounts_get.bind fun heap => (accounts_modify _).bind fun _ => ?_
  split
  · refine (accounts_require _).bind fun _ => (accounts_modify _).bind fun _ => ?_
    exact accounts_fail _
  · refine (accounts_claim _ _ _).bind fun moved => (accounts_clearHeader _).bind fun _ => ?_
    refine (accounts_move _ _ _).bind fun _ => (accounts_storeHeader _ _).bind fun _ => ?_
    exact (accounts_emit (by simp [Event.level])).bind fun _ => accounts_pure _

theorem accounts_resize (handle : Handle) (old : Header) (newSize : Nat) :
    (resize handle old newSize).Accounts := by
  unfold resize
  split
  · exact accounts_pure handle
  split
  · exact (accounts_shrink _ _ _).bind fun _ => accounts_pure handle
  refine (accounts_grow _ _ _).bind fun grown => ?_
  split
  · exact accounts_pure handle
  · exact accounts_relocate _ _ _

theorem accounts_realloc (handle : Handle) (newSize : Nat) : (realloc handle newSize).Accounts := by
  refine accounts_get.bind fun _ => (accounts_header handle).bind fun old => ?_
  refine (accounts_word _).bind fun stop => accounts_get.bind fun heap => ?_
  split
  · exact accounts_fail _
  split
  · exact accounts_fail _
  refine accounts_get.bind fun _ => accounts_get.bind fun _ => (accounts_minus _ _).bind fun free => ?_
  split
  · exact accounts_fail _
  · exact accounts_resize _ _ _

theorem accounts_free (handle : Handle) : (free handle).Accounts := by
  refine accounts_get.bind fun heap => ?_
  cases heap.header? handle with
  | none =>
    simp only
    split <;> exact accounts_fail _
  | some header =>
    refine (accounts_word _).bind fun stop => ?_
    split
    · exact accounts_fail _
    refine (accounts_minus _ _).bind fun span => (accounts_minus _ _).bind fun used => ?_
    refine (accounts_clearHeader _).bind fun _ => (accounts_modify _).bind fun _ => ?_
    exact accounts_emit (by simp [Event.level])

theorem accounts_region (handle : Handle) : (region handle).Accounts := by
  refine (accounts_header handle).bind fun header => accounts_get.bind fun _ => ?_
  exact (accounts_require _).bind fun _ => accounts_pure _

theorem accounts : Allocator.Accounts Heap :=
  ⟨accounts_alignedAlloc, accounts_realloc, accounts_free, accounts_header, accounts_region⟩

end Accounts

end Heap

/-! ## Arenas and scopes -/

namespace Arena

section Accounts

theorem accounts_create {σ : Type} (supply : Supply) (inlinePage : Nat) (settings : ArenaSettings) :
    (create supply inlinePage settings : Action σ Arena).Accounts := by
  unfold create
  simp only
  split
  · exact accounts_fail _
  · exact (accounts_emit (by simp [Event.level])).bind fun _ => accounts_pure _

theorem accounts_header (handle : Handle) : (header handle).Accounts := by
  refine accounts_get.bind fun arena => ?_
  cases arena.header? handle with
  | some header => exact accounts_pure header
  | none => exact accounts_fail _

theorem accounts_topHeader (handle : Handle) : (topHeader handle).Accounts := by
  refine (accounts_header handle).bind fun header => accounts_get.bind fun arena => ?_
  split
  · exact accounts_pure header
  · exact accounts_fail _

theorem accounts_storeHeader (handle : Handle) (header : Header) :
    (storeHeader handle header).Accounts :=
  accounts_get.bind fun _ => (accounts_demand _).bind fun _ =>
    (accounts_require _).bind fun _ => accounts_modify _

theorem accounts_clearHeader (handle : Handle) : (clearHeader handle).Accounts :=
  accounts_get.bind fun _ => (accounts_demand _).bind fun _ =>
    (accounts_require _).bind fun _ => accounts_modify _

theorem accounts_moveTo (cursor : Cursor) : (moveTo cursor).Accounts := accounts_modify _

/-- A request that does not fit the page is no failure yet. -/
theorem accounts_bump? (size alignment : Nat) : (bump? size alignment).Accounts := by
  refine accounts_get.bind fun arena => ?_
  simp only
  split
  · exact accounts_pure none
  refine accounts_get.bind fun _ => (accounts_demand _).bind fun page => ?_
  split
  · exact accounts_pure none
  refine (accounts_storeHeader _ _).bind fun _ => (accounts_moveTo _).bind fun _ => ?_
  exact accounts_pure _

theorem accounts_addPage (size required : Nat) : (addPage size required).Accounts := by
  refine accounts_get.bind fun arena => ?_
  simp only
  split
  · exact accounts_fail _
  split
  · exact accounts_fail _
  refine (accounts_require _).bind fun _ => (accounts_modify _).bind fun _ => ?_
  exact accounts_emit (by simp [Event.level])

theorem accounts_advance (size alignment : Nat) : (advance size alignment).Accounts := by
  refine accounts_get.bind fun arena => (accounts_word _).bind fun slack => ?_
  cases addWord? size slack with
  | none => exact accounts_fail _
  | some required =>
    simp only
    split
    · exact accounts_moveTo _
    · exact (accounts_addPage _ _).bind fun _ => accounts_moveTo _

theorem accounts_place (size alignment : Nat) : (place size alignment).Accounts := by
  refine (accounts_bump? size alignment).bind fun first => ?_
  cases first with
  | some handle => exact accounts_pure handle
  | none =>
    refine (accounts_advance size alignment).bind fun _ => ?_
    refine (accounts_bump? size alignment).bind fun second => ?_
    cases second with
    | some handle => exact accounts_pure handle
    | none => exact accounts_get.bind fun _ => accounts_fail _

theorem accounts_alignedAlloc (size alignment : Nat) : (alignedAlloc size alignment).Accounts := by
  refine accounts_get.bind fun _ => (accounts_checkRequest _ _ _).bind fun _ => ?_
  refine (accounts_place size alignment).bind fun handle => ?_
  exact (accounts_emit (by simp [Event.level])).bind fun _ => accounts_pure handle

theorem accounts_copyForward (source target : Handle) (size : Nat) :
    (copyForward source target size).Accounts := by
  refine (accounts_require _).bind fun _ => accounts_get.bind fun _ => ?_
  refine (accounts_demand _).bind fun page => (accounts_require _).bind fun _ => ?_
  refine accounts_get.bind fun _ => (accounts_demand _).bind fun targetPage => ?_
  exact (accounts_require _).bind fun _ => accounts_modify _

/-- Setting the cursor back after a failed allocation logs nothing more. -/
theorem accounts_relocate (handle : Handle) (old : Header) (newSize : Nat) :
    (relocate handle old newSize).Accounts := by
  refine accounts_get.bind fun arena => (accounts_moveTo _).bind fun _ => ?_
  have hrewinds : (moveTo arena.cursor).Silent := fun _ => rfl
  refine ((accounts_alignedAlloc newSize old.alignment).onFault hrewinds).bind fun moved => ?_
  refine (accounts_copyForward _ _ _).bind fun _ => (accounts_clearHeader _).bind fun _ => ?_
  exact accounts_pure moved

theorem accounts_realloc (handle : Handle) (newSize : Nat) : (realloc handle newSize).Accounts := by
  refine (accounts_topHeader handle).bind fun old => ?_
  split
  · exact accounts_get.bind fun _ => accounts_fail _
  split
  · exact accounts_pure handle
  refine accounts_get.bind fun _ => (accounts_demand _).bind fun page => ?_
  split
  · refine (accounts_storeHeader _ _).bind fun _ => (accounts_moveTo _).bind fun _ => ?_
    exact accounts_pure handle
  · exact accounts_relocate _ _ _

theorem accounts_free (handle : Handle) : (free handle).Accounts := by
  refine (accounts_topHeader handle).bind fun header => (accounts_clearHeader _).bind fun _ => ?_
  refine (accounts_moveTo _).bind fun _ => accounts_get.bind fun _ => ?_
  exact accounts_emit (by simp [Event.level])

theorem accounts_region (handle : Handle) : (region handle).Accounts := by
  refine (accounts_header handle).bind fun header => accounts_get.bind fun _ => ?_
  refine (accounts_demand _).bind fun page => (accounts_require _).bind fun _ => ?_
  exact accounts_pure _

theorem accounts : Allocator.Accounts Arena :=
  ⟨accounts_alignedAlloc, accounts_realloc, accounts_free, accounts_header, accounts_region⟩

theorem silent_destroy : destroy.Silent := fun _ => rfl

end Accounts

end Arena

theorem Scope.accounts_call {α : Type} (call : Call α) : (call.run : Action Scope α).Accounts := by
  rw [run_eq]
  exact (Arena.accounts.call call).within _ _

/-! ## Settings and the process-wide allocators -/

section Settings

variable {σ : Type}

theorem Settings.accounts_check (settings : Settings) : (settings.check : Action σ Unit).Accounts := by
  unfold check
  split
  · exact accounts_fail _
  · exact accounts_pure ()

theorem Settings.accounts_ofText (text : String) (reader : Reader) :
    (ofText text reader : Action σ Settings).Accounts := by
  unfold ofText
  split
  · exact accounts_fail _
  · exact (accounts_check _).bind fun _ => accounts_pure _

theorem Settings.accounts_ofFile (path : String) (contents : Option ByteArray) (refusal : String)
    (reader : Reader) : (ofFile path contents refusal reader : Action σ Settings).Accounts := by
  unfold ofFile
  split
  · exact accounts_fail _
  · split
    · exact accounts_fail _
    · exact accounts_ofText _ _

/-- If the heap cannot be made, what is logged about the arena that is given up is no error. -/
theorem Suite.accounts_create (supply : Supply) (settings : Settings) :
    (create supply settings : Action σ Suite).Accounts := by
  refine settings.accounts_check.bind fun _ => ?_
  refine (Arena.accounts_create _ _ _).bind fun persistent => ?_
  have hdestroys : (Arena.destroy.within (fun _ : σ => persistent) fun _ state => state).Silent :=
    fun _ => Arena.silent_destroy persistent
  refine ((Heap.accounts_create _ _).onFault hdestroys).bind fun general => ?_
  exact (accounts_emit (by simp [Event.level])).bind fun _ => accounts_pure _

end Settings

/-- Every call on a heap, an arena or a scope, whatever their state, and everything that makes
allocators or reads their settings: a call that fails logs one error, whose text is that of the fault
it replies with, and one that replies with a value logs no error. -/
theorem failures_logged_once :
    (∀ {α : Type} (call : Call α) (heap : Heap), (call.run heap).Accounted) ∧
      (∀ {α : Type} (call : Call α) (arena : Arena), (call.run arena).Accounted) ∧
      (∀ {α : Type} (call : Call α) (scope : Scope), (call.run scope).Accounted) ∧
      ∀ {σ : Type} (state : σ) (supply : Supply),
        (∀ settings, (Heap.create supply settings state).Accounted) ∧
        (∀ inlinePage settings, (Arena.create supply inlinePage settings state).Accounted) ∧
        (∀ settings : Settings, (settings.check state).Accounted) ∧
        (∀ text reader, (Settings.ofText text reader state).Accounted) ∧
        (∀ path contents refusal reader,
          (Settings.ofFile path contents refusal reader state).Accounted) ∧
        ∀ settings, (Suite.create supply settings state).Accounted := by
  refine ⟨fun call => Heap.accounts.call call, fun call => Arena.accounts.call call,
    Scope.accounts_call, ?_⟩
  intro σ state supply
  exact ⟨fun settings => Heap.accounts_create supply settings state,
    fun inlinePage settings => Arena.accounts_create supply inlinePage settings state,
    fun settings => settings.accounts_check state,
    fun text reader => Settings.accounts_ofText text reader state,
    fun path contents refusal reader =>
      Settings.accounts_ofFile path contents refusal reader state,
    fun settings => Suite.accounts_create supply settings state⟩

end HandleAlloc
