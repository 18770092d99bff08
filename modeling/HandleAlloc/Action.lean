import HandleAlloc.Event
import HandleAlloc.Word
/-!
# Actions

A call on an allocator is an `Action`: a total function from the allocator's state to an
`Outcome`, which holds the reply, the state afterwards and the events logged on the way. The
state is there whatever the reply, so "a failed call changes nothing" is a statement about
outcomes and not built in.

An action replies with a value, with a fault, or with `trap`. It traps where a computation
would leave the range of machine words or reach outside a page; that it never does so is for
the invariants of the allocators to show.
-/

namespace HandleAlloc

inductive Reply (α : Type) where
  | ok (value : α)
  | error (fault : Fault)
  /-- A step left the range of machine words or reached outside a page. -/
  | trap
  deriving DecidableEq, Repr

/-- The reply of a call, the state after it and the events it logged, oldest first. -/
structure Outcome (σ α : Type) where
  reply : Reply α
  state : σ
  events : List Event

/-- A call on a state of type `σ` that replies with an `α`. -/
def Action (σ α : Type) : Type := σ → Outcome σ α

namespace Action

variable {σ τ α β : Type}

protected def pure (value : α) : Action σ α := fun state => ⟨.ok value, state, []⟩

protected def bind (first : Action σ α) (next : α → Action σ β) : Action σ β := fun state =>
  match first state with
  | ⟨.ok value, middle, events⟩ =>
    let last := next value middle
    ⟨last.reply, last.state, events ++ last.events⟩
  | ⟨.error fault, final, events⟩ => ⟨.error fault, final, events⟩
  | ⟨.trap, final, events⟩ => ⟨.trap, final, events⟩

instance : Monad (Action σ) where
  pure := Action.pure
  bind := Action.bind

instance : MonadStateOf σ (Action σ) where
  get := fun state => ⟨.ok state, state, []⟩
  set final := fun _ => ⟨.ok (), final, []⟩
  modifyGet f := fun state => ⟨.ok (f state).1, (f state).2, []⟩

def emit (event : Event) : Action σ Unit := fun state => ⟨.ok (), state, [event]⟩

/-- Replies with a fault, logging it. Every fault is raised here, and so logged once. -/
def fail (fault : Fault) : Action σ α := fun state => ⟨.error fault, state, [.failure fault]⟩

def trap : Action σ α := fun state => ⟨.trap, state, []⟩

def require (condition : Prop) [Decidable condition] : Action σ Unit :=
  if condition then pure () else trap

/-- The value of an option; traps when there is none. -/
def demand : Option α → Action σ α
  | some value => pure value
  | none => trap

/-- A number that has to be a machine word. -/
def word (n : Nat) : Action σ Nat := do
  require (n < wordSize)
  return n

/-- The difference of two numbers, the first of which has to be the larger. -/
def minus (a b : Nat) : Action σ Nat := do
  require (b ≤ a)
  return a - b

/-- Runs `cleanup` after `action` if that replies with a fault, and still replies with it. -/
def onFault (action : Action σ α) (cleanup : Action σ Unit) : Action σ α := fun state =>
  match action state with
  | ⟨.error fault, middle, events⟩ =>
    let last := cleanup middle
    ⟨.error fault, last.state, events ++ last.events⟩
  | outcome => outcome

def within (part : τ → σ) (replace : σ → τ → τ) (action : Action σ α) : Action τ α :=
  fun whole =>
    let inner := action (part whole)
    ⟨inner.reply, replace inner.state whole, inner.events⟩

/-! ## How actions run -/

theorem pure_run (value : α) (state : σ) :
    (pure value : Action σ α) state = ⟨.ok value, state, []⟩ := rfl

theorem get_run (state : σ) : (get : Action σ σ) state = ⟨.ok state, state, []⟩ := rfl

theorem set_run (final state : σ) : (set final : Action σ Unit) state = ⟨.ok (), final, []⟩ := rfl

theorem modify_run (change : σ → σ) (state : σ) :
    (modify change : Action σ Unit) state = ⟨.ok (), change state, []⟩ := rfl

theorem emit_run (event : Event) (state : σ) :
    (emit event : Action σ Unit) state = ⟨.ok (), state, [event]⟩ := rfl

theorem fail_run (fault : Fault) (state : σ) :
    (fail fault : Action σ α) state = ⟨.error fault, state, [.failure fault]⟩ := rfl

theorem trap_run (state : σ) : (trap : Action σ α) state = ⟨.trap, state, []⟩ := rfl

theorem require_run_of {condition : Prop} [Decidable condition] (hcondition : condition)
    (state : σ) : (require condition : Action σ Unit) state = ⟨.ok (), state, []⟩ := by
  rw [require, if_pos hcondition]
  rfl

theorem require_run_of_not {condition : Prop} [Decidable condition] (hcondition : ¬ condition)
    (state : σ) : (require condition : Action σ Unit) state = ⟨.trap, state, []⟩ := by
  rw [require, if_neg hcondition]
  rfl

theorem word_run_of_lt {n : Nat} (hn : n < wordSize) (state : σ) :
    (word n : Action σ Nat) state = ⟨.ok n, state, []⟩ := by
  rw [word, require, if_pos hn]
  rfl

theorem minus_run_of_le {a b : Nat} (hle : b ≤ a) (state : σ) :
    (minus a b : Action σ Nat) state = ⟨.ok (a - b), state, []⟩ := by
  rw [minus, require, if_pos hle]
  rfl

theorem within_run (part : τ → σ) (replace : σ → τ → τ) (action : Action σ α) (whole : τ) :
    action.within part replace whole =
      ⟨(action (part whole)).reply, replace (action (part whole)).state whole,
        (action (part whole)).events⟩ := rfl

theorem bind_run (first : Action σ α) (next : α → Action σ β) (state : σ) :
    (first >>= next) state =
      match first state with
      | ⟨.ok value, middle, events⟩ =>
        ⟨(next value middle).reply, (next value middle).state,
          events ++ (next value middle).events⟩
      | ⟨.error fault, final, events⟩ => ⟨.error fault, final, events⟩
      | ⟨.trap, final, events⟩ => ⟨.trap, final, events⟩ := rfl

private theorem map_id_run (action : Action σ α) :
    Action.bind action Action.pure = action := by
  funext state
  rcases h : action state with ⟨reply, final, events⟩
  cases reply <;> simp [Action.bind, Action.pure, h]

private theorem bind_assoc_run {γ : Type} (first : Action σ α) (second : α → Action σ β)
    (third : β → Action σ γ) :
    Action.bind (Action.bind first second) third =
      Action.bind first fun value => Action.bind (second value) third := by
  funext state
  rcases h : first state with ⟨reply, middle, events⟩
  cases reply with
  | ok value =>
    rcases h' : second value middle with ⟨reply', last, later⟩
    cases reply' <;> simp [Action.bind, h, h']
  | error fault => simp [Action.bind, h]
  | trap => simp [Action.bind, h]

instance : LawfulMonad (Action σ) :=
  LawfulMonad.mk' _ map_id_run (fun _ _ => rfl) bind_assoc_run

end Action

end HandleAlloc
