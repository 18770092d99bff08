import HandleAlloc.Allocator
/-!
# Calls that settle

A call settles if it leaves no half-done work behind: it fails and changes nothing, or it replies
with a value. `Settles` says so of an outcome, together with the effect of the second case.
-/

namespace HandleAlloc

namespace Outcome

variable {σ α β : Type} {start : σ} {effect : α → σ → Prop} {further : β → σ → Prop}

/-- A call that fails: it replies with a fault, logs it, and changes nothing. -/
def failed (fault : Fault) (state : σ) : Outcome σ α := ⟨.error fault, state, [.failure fault]⟩

/-- How a call ends that leaves no half-done work: it fails and changes nothing, or replies with a
value and has the effect. -/
inductive Settles (start : σ) (effect : α → σ → Prop) : Outcome σ α → Prop where
  | failed (fault : Fault) : Settles start effect (.failed fault start)
  | done {value : α} {after : σ} (events : List Event) (heffect : effect value after) :
    Settles start effect ⟨.ok value, after, events⟩

theorem Settles.imp {other : α → σ → Prop} {outcome : Outcome σ α}
    (hsettles : outcome.Settles start effect)
    (himp : ∀ value after, effect value after → other value after) :
    outcome.Settles start other := by
  cases hsettles with
  | failed fault => exact .failed fault
  | done events heffect => exact .done events (himp _ _ heffect)

theorem Settles.reply_ne_trap {outcome : Outcome σ α} (hsettles : outcome.Settles start effect) :
    outcome.reply ≠ .trap := by
  cases hsettles with
  | failed => exact nofun
  | done => exact nofun

theorem Settles.state_eq_of_error {outcome : Outcome σ α} {fault : Fault}
    (hsettles : outcome.Settles start effect) (hfailed : outcome.reply = .error fault) :
    outcome.state = start := by
  cases hsettles with
  | failed => rfl
  | done => exact absurd hfailed nofun

theorem Settles.state {outcome : Outcome σ α} {holds : σ → Prop}
    (hsettles : outcome.Settles start effect) (hstart : holds start)
    (heffect : ∀ value after, effect value after → holds after) : holds outcome.state := by
  cases hsettles with
  | failed fault => exact hstart
  | done events hdone => exact heffect _ _ hdone

theorem eq_of_reply {outcome : Outcome σ α} {value : α} (hreply : outcome.reply = .ok value) :
    outcome = ⟨.ok value, outcome.state, outcome.events⟩ := by
  rw [← hreply]

theorem Settles.effect_of_ok {value : α} {after : σ} {events : List Event}
    (hsettles : Settles start effect ⟨.ok value, after, events⟩) : effect value after := by
  cases hsettles with
  | done _ heffect => exact heffect

theorem Settles.effect_of_reply {outcome : Outcome σ α} {value : α}
    (hsettles : outcome.Settles start effect) (hreply : outcome.reply = .ok value) :
    effect value outcome.state := by
  rw [eq_of_reply hreply] at hsettles
  exact hsettles.effect_of_ok

theorem Settles.bind {first : Action σ α} {next : α → Action σ β}
    (hsettles : (first start).Settles start effect)
    (hnext : ∀ value after, effect value after →
      ∃ result final events, next value after = ⟨.ok result, final, events⟩ ∧
        further result final) :
    ((first >>= next) start).Settles start further := by
  rw [Action.bind_run]
  generalize hrun : first start = outcome at hsettles
  cases hsettles with
  | failed fault => exact .failed fault
  | @done value after events heffect =>
    obtain ⟨result, final, later, hlater, hfurther⟩ := hnext value after heffect
    simp only [hlater]
    exact .done _ hfurther

end Outcome

theorem checkRequest_run {σ : Type} (allocator : String) (size alignment : Nat) (state : σ) :
    (checkRequest allocator size alignment : Action σ Unit) state =
      if ¬ alignment.isPowerOfTwo then .failed (.invalidAlignment allocator alignment) state
      else if size = 0 then .failed (.zeroSize allocator) state
      else ⟨.ok (), state, []⟩ := by
  unfold checkRequest
  split
  · rfl
  · split <;> rfl

/-! ## Calls that go through a region -/

namespace Allocator

open HandleAlloc.Action

section Region

variable {σ : Type} [Allocator σ] {start : σ} {handle : Handle} {place? : Option Region}
  {fault : Fault}
  (hregion : (region handle : Action σ Region) start =
    place?.elim (.failed fault start) fun place => ⟨.ok place, start, []⟩)

include hregion

theorem bytes_run_of_region : (bytes handle : Action σ ByteArray) start =
    place?.elim (.failed fault start) fun place => ⟨.ok (load place start), start, []⟩ := by
  simp only [bytes, bind_run, hregion]
  cases place? <;> rfl

theorem overwrite_run_of_region (position : Nat) (data : ByteArray) :
    (overwrite handle position data : Action σ Bool) start =
      place?.elim (.failed fault start) fun place =>
        ⟨.ok (position + data.size ≤ place.size), store place position data start, []⟩ := by
  simp only [overwrite, bind_run, hregion]
  cases place? <;> rfl

theorem read_run_of_region {α : Type} [PlainData α] : (read handle : Action σ α) start =
    place?.elim (.failed fault start) fun place =>
      let contents := load place start
      if PlainData.size α ≤ contents.size then
        ⟨.ok (PlainData.decode (contents.extract 0 (PlainData.size α)).data.toList), start, []⟩
      else .failed (.invalidHandle (name start) handle) start := by
  simp only [read, bind_run, bytes_run_of_region hregion]
  cases place? with
  | none => rfl
  | some place =>
    simp only [Option.elim_some]
    split <;> rfl

end Region

end Allocator

end HandleAlloc
