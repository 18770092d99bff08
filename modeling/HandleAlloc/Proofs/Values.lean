import HandleAlloc.Proofs.Call
/-!
# Zeroed allocations and stored values

Zeroed allocation and typed values are defined once for all allocators, and so is what they do:
where a new allocation can be written to (`Granted`), `allocZero` and `construct` reply as a plain
request does and fail as it does (`Answers`), the bytes of the one are zero, and the value of the
other reads back (`provides_of_granted`). A value goes on to be read as long as the bytes that it is
stored as stay (`StartsWith.read`).
-/

namespace HandleAlloc

open HandleAlloc.Action

def PlainData.bytes {α : Type} [PlainData α] (value : α) : ByteArray :=
  ⟨(PlainData.encode value).toArray⟩

@[simp] theorem PlainData.size_bytes {α : Type} [PlainData α] (value : α) :
    (PlainData.bytes value).size = PlainData.size α :=
  PlainData.length_encode value

variable {σ : Type} [Allocator σ]

def StartsWith (state : σ) (handle : Handle) (data : ByteArray) : Prop :=
  ∃ contents, ((Call.bytes handle).run state).reply = .ok contents ∧
    contents.extract 0 data.size = data

def Zeroed (state : σ) (handle : Handle) (size : Nat) : Prop :=
  ∃ header, ((Call.header handle).run state).reply = .ok header ∧ size ≤ header.size ∧
    ((Call.bytes handle).run state).reply = .ok (Memory.zeros header.size)

/-- A call replies as a plain request for `size` bytes does. It fails only with that, changing
nothing, and has the effect if it succeeds. -/
structure Answers (state : σ) (call : Call Handle) (size : Nat) (effect : Handle → σ → Prop) :
    Prop where
  reply_eq : (call.run state).reply =
    ((Call.alignedAlloc size defaultAlignment).run state).reply
  settles : (call.run state).Settles state effect

/-- Requests for zeroed allocations and for places of values are answered as plain requests are,
with allocations of zeros and with values that are read back. -/
structure Provides (state : σ) : Prop where
  allocZero : ∀ size, Answers state (.allocZero size) size fun handle after =>
    Zeroed after handle size
  construct : ∀ {α : Type} [PlainData α] (value : α),
    Answers state (.construct value) (max (PlainData.size α) 1) fun handle after =>
      ((Call.read handle : Call α).run after).reply = .ok value

/-- A new allocation: its usable bytes are there, and what is written to them is read from there. -/
structure Granted (state : σ) (handle : Handle) (header : Header) (place : Region) : Prop where
  region_run : (Allocator.region handle : Action σ Region) state = ⟨.ok place, state, []⟩
  size_eq : place.size = header.size
  header_eq : ∀ data,
    ((Call.header handle).run (Allocator.store place 0 data state)).reply = .ok header
  bytes_eq : ∀ data, data.size ≤ place.size → ∃ contents,
    ((Call.bytes handle).run (Allocator.store place 0 data state)).reply = .ok contents ∧
      contents.size = place.size ∧ contents.extract 0 data.size = data

section Values

variable {α : Type} [PlainData α] {state : σ} {handle : Handle} {header : Header} {place : Region}
  {size count : Nat} {data contents : ByteArray}

theorem extract_eq_of_extract_eq {kept : ByteArray} (hle : data.size ≤ count)
    (hsame : kept.extract 0 count = contents.extract 0 count)
    (hdata : contents.extract 0 data.size = data) : kept.extract 0 data.size = data := by
  have hfirst (bytes : ByteArray) :
      bytes.extract 0 data.size = (bytes.extract 0 count).extract 0 data.size := by
    rw [ByteArray.extract_extract, Nat.zero_add, Nat.zero_add, Nat.min_eq_left hle]
  rw [hfirst kept, hsame, ← hfirst contents, hdata]

theorem StartsWith.read {value : α} (hstarts : StartsWith state handle (PlainData.bytes value)) :
    ((Call.read handle : Call α).run state).reply = .ok value := by
  obtain ⟨contents, hbytes, hdata⟩ := hstarts
  obtain ⟨after, events, hrun⟩ : ∃ after events,
      (Allocator.bytes handle : Action σ ByteArray) state = ⟨.ok contents, after, events⟩ :=
    ⟨_, _, Outcome.eq_of_reply hbytes⟩
  have hsize := congrArg ByteArray.size hdata
  rw [PlainData.size_bytes] at hdata hsize
  rw [ByteArray.size_extract] at hsize
  have hlong : PlainData.size α ≤ contents.size := by omega
  simp only [Call.run, Allocator.read, bind_run, hrun, if_pos hlong, hdata, pure_run,
    PlainData.bytes, PlainData.decode_encode]

theorem Granted.zeroed (hgranted : Granted state handle header place) (hsize : size ≤ place.size) :
    Zeroed (Allocator.store place 0 (Memory.zeros place.size) state) handle size := by
  have hzeros := Memory.size_zeros place.size
  obtain ⟨contents, hbytes, hcontents, hdata⟩ :=
    hgranted.bytes_eq (Memory.zeros place.size) (Nat.le_of_eq hzeros)
  rw [hzeros, ← hcontents, ByteArray.extract_zero_size] at hdata
  refine ⟨header, hgranted.header_eq _, hgranted.size_eq ▸ hsize, ?_⟩
  rw [hbytes, hdata, hcontents, hgranted.size_eq]

theorem Granted.startsWith (hgranted : Granted state handle header place)
    (hdata : data.size ≤ place.size) :
    StartsWith (Allocator.store place 0 data state) handle data := by
  obtain ⟨contents, hbytes, _, hfirst⟩ := hgranted.bytes_eq data hdata
  exact ⟨contents, hbytes, hfirst⟩

theorem answers_of_bind {call : Call Handle} {effect : Handle → σ → Prop}
    (hgranted : ((Call.alignedAlloc size defaultAlignment).run state).Settles state
      fun handle after => ∃ header place, size ≤ place.size ∧ Granted after handle header place)
    (next : Handle → Action σ Handle)
    (hcall : call.run state =
      ((Call.alignedAlloc size defaultAlignment).run >>= next : Action σ Handle) state)
    (hnext : ∀ {after handle header place}, size ≤ place.size → Granted after handle header place →
      ∃ final, next handle after = ⟨.ok handle, final, []⟩ ∧ effect handle final) :
    Answers state call size effect := by
  constructor
  · rw [hcall, bind_run]
    generalize (Call.alignedAlloc size defaultAlignment).run state = outcome at hgranted
    cases hgranted with
    | failed => rfl
    | done events heffect =>
      obtain ⟨_, _, hsize, hgranted⟩ := heffect
      obtain ⟨final, hrun, _⟩ := hnext hsize hgranted
      simp only [hrun]
  · rw [hcall]
    apply hgranted.bind
    rintro handle after ⟨_, _, hsize, hgranted⟩
    obtain ⟨final, hrun, heffect⟩ := hnext hsize hgranted
    exact ⟨handle, final, [], hrun, heffect⟩

section Grants

variable (hgranted : ∀ size, ((Call.alignedAlloc size defaultAlignment).run state).Settles state
  fun handle after => ∃ header place, size ≤ place.size ∧ Granted after handle header place)

include hgranted

/-- The second step of a zeroed allocation can neither fail nor trap. -/
theorem answers_allocZero (size : Nat) :
    Answers state (.allocZero size) size fun handle after => Zeroed after handle size := by
  apply answers_of_bind (hgranted size) _ rfl
  intro after handle header place hsize hplace
  simp only [bind_run, hplace.region_run, modify_run, pure_run]
  exact ⟨_, rfl, hplace.zeroed hsize⟩

theorem answers_construct (value : α) :
    Answers state (.construct value) (max (PlainData.size α) 1) fun handle after =>
      StartsWith after handle (PlainData.bytes value) := by
  apply answers_of_bind (hgranted _) _ rfl
  intro after handle header place hsize hplace
  have hfits : PlainData.size α ≤ place.size := Nat.le_trans (Nat.le_max_left _ 1) hsize
  simp only [bind_run, hplace.region_run, require_run_of hfits, modify_run, pure_run]
  exact ⟨_, rfl, hplace.startsWith (Nat.le_trans (Nat.le_of_eq (PlainData.size_bytes value)) hfits)⟩

theorem provides_of_granted : Provides state where
  allocZero := answers_allocZero hgranted
  construct value := by
    have hanswers := answers_construct hgranted value
    exact ⟨hanswers.reply_eq, hanswers.settles.imp fun _ _ hstarts => hstarts.read⟩

end Grants

end Values

end HandleAlloc
