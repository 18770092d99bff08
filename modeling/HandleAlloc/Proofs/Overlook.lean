import HandleAlloc.Proofs.Call
/-!
# Changes that actions overlook

An action overlooks a change of the state if it does the same on the changed state: it replies the
same, logs the same, and leaves what it would have left, changed. Actions in a row overlook a change if
each of them does where it runs, and so the calls that an allocator has by default do if those that it
supplies do (`Allocator.Oblivious.call`).
-/

namespace HandleAlloc

open HandleAlloc.Action

section Overlooks

variable {σ α β : Type} {change : σ → σ} {state after : σ} {reply : Reply α} {events : List Event}

/-- From a state on, an action does not see a change of it. -/
def Action.Overlooks (change : σ → σ) (action : Action σ α) (state : σ) : Prop :=
  action (change state) =
    ⟨(action state).reply, change (action state).state, (action state).events⟩

theorem Action.Overlooks.of_run {action : Action σ α} (hrun : action state = ⟨reply, after, events⟩)
    (hchanged : action (change state) = ⟨reply, change after, events⟩) :
    action.Overlooks change state := by
  rw [Overlooks, hrun, hchanged]

theorem Action.overlooks_pure (change : σ → σ) (value : α) (state : σ) :
    (pure value : Action σ α).Overlooks change state := rfl

/-- What follows has to overlook the change only where it runs. -/
theorem Action.Overlooks.bind {first : Action σ α} {next : α → Action σ β}
    (hfirst : first.Overlooks change state)
    (hnext : ∀ value after events, first state = ⟨.ok value, after, events⟩ →
      (next value).Overlooks change after) : (first >>= next).Overlooks change state := by
  rw [Overlooks, bind_run, bind_run, hfirst]
  rcases hrun : first state with ⟨reply, after, events⟩
  cases reply with
  | ok value =>
    have hlast := hnext value after events hrun
    rw [Overlooks] at hlast
    simp only [hlast]
  | error fault => rfl
  | trap => rfl

end Overlooks

namespace Allocator

section Oblivious

variable {σ α : Type} [Allocator σ] {change : σ → σ} {state : σ} {handle : Handle}

/-- The parts of an allocator that are no calls do not see a change of its state. -/
structure Oblivious (change : σ → σ) : Prop where
  name_eq : ∀ state, name (change state) = name state
  load_eq : ∀ place state, load place (change state) = load place state
  store_eq : ∀ place position data state,
    store place position data (change state) = change (store place position data state)

/-- No call that an allocator supplies sees a change of its state, if it is made with this handle. -/
structure Overlooked (change : σ → σ) (state : σ) (handle : Handle) : Prop where
  header : (header handle : Action σ Header).Overlooks change state
  region : (region handle : Action σ Region).Overlooks change state
  realloc : ∀ newSize, (realloc handle newSize : Action σ Handle).Overlooks change state
  free : (free handle : Action σ Unit).Overlooks change state

theorem Oblivious.bytes (hoblivious : Oblivious change)
    (hregion : (Allocator.region handle : Action σ Region).Overlooks change state) :
    (bytes handle : Action σ ByteArray).Overlooks change state := by
  refine Overlooks.bind hregion fun place after _ _ => ?_
  rw [Overlooks]
  simp only [bind_run, get_run, pure_run, hoblivious.load_eq]

theorem Oblivious.overwrite (hoblivious : Oblivious change)
    (hregion : (Allocator.region handle : Action σ Region).Overlooks change state) (position : Nat)
    (data : ByteArray) : (overwrite handle position data : Action σ Bool).Overlooks change state := by
  refine Overlooks.bind hregion fun place after _ _ => ?_
  rw [Overlooks]
  simp only [bind_run, modify_run, pure_run, hoblivious.store_eq]

theorem Oblivious.read [PlainData α] (hoblivious : Oblivious change)
    (hregion : (Allocator.region handle : Action σ Region).Overlooks change state) :
    (read handle : Action σ α).Overlooks change state := by
  refine Overlooks.bind (hoblivious.bytes hregion) fun contents after _ _ => ?_
  split
  · exact overlooks_pure _ _ _
  · rw [Overlooks]
    simp only [bind_run, get_run, fail_run, hoblivious.name_eq]

theorem Oblivious.allocZero {size : Nat} (hoblivious : Oblivious change)
    (halloc : (alloc size : Action σ Handle).Overlooks change state)
    (hissued : ∀ handle after events, (alloc size : Action σ Handle) state =
      ⟨.ok handle, after, events⟩ →
        (Allocator.region handle : Action σ Region).Overlooks change after) :
    (allocZero size : Action σ Handle).Overlooks change state := by
  refine Overlooks.bind halloc fun handle after _ hrun => ?_
  refine Overlooks.bind (hissued handle after _ hrun) fun place later _ _ => ?_
  rw [Overlooks]
  simp only [bind_run, modify_run, pure_run, hoblivious.store_eq]

theorem Oblivious.construct [PlainData α] {value : α} (hoblivious : Oblivious change)
    (halloc : (alloc (max (PlainData.size α) 1) : Action σ Handle).Overlooks change state)
    (hissued : ∀ handle after events, (alloc (max (PlainData.size α) 1) : Action σ Handle) state =
      ⟨.ok handle, after, events⟩ →
        (Allocator.region handle : Action σ Region).Overlooks change after) :
    (construct value : Action σ Handle).Overlooks change state := by
  refine Overlooks.bind halloc fun handle after _ hrun => ?_
  refine Overlooks.bind (hissued handle after _ hrun) fun place later _ _ => ?_
  by_cases hsize : PlainData.size α ≤ place.size
  · rw [Overlooks]
    simp only [bind_run, require_run_of hsize, modify_run, pure_run, hoblivious.store_eq]
  · rw [Overlooks]
    simp only [bind_run, require_run_of_not hsize]

/-- No call sees the change that neither the allocation it is made of nor the calls with its handle
see. -/
theorem Oblivious.call (hoblivious : Oblivious change) (call : Call α)
    (halloc : ∀ request ∈ call.request?,
      (alignedAlloc request.1 request.2 : Action σ Handle).Overlooks change state)
    (hissued : ∀ request ∈ call.request?, ∀ handle after events,
      (alignedAlloc request.1 request.2 : Action σ Handle) state = ⟨.ok handle, after, events⟩ →
        (Allocator.region handle : Action σ Region).Overlooks change after)
    (hhandle : ∀ handle ∈ call.handle?, Overlooked change state handle) :
    (call.run : Action σ α).Overlooks change state := by
  cases call with
  | alignedAlloc | alloc => exact halloc _ rfl
  | allocZero size => exact hoblivious.allocZero (halloc _ rfl) (hissued _ rfl)
  | construct value => exact hoblivious.construct (halloc _ rfl) (hissued _ rfl)
  | realloc handle newSize => exact (hhandle handle rfl).realloc newSize
  | free handle => exact (hhandle handle rfl).free
  | header handle => exact (hhandle handle rfl).header
  | bytes handle => exact hoblivious.bytes (hhandle handle rfl).region
  | overwrite handle position data => exact hoblivious.overwrite (hhandle handle rfl).region _ _
  | read handle => exact hoblivious.read (hhandle handle rfl).region

end Oblivious

end Allocator

end HandleAlloc
