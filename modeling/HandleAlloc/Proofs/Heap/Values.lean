import HandleAlloc.Proofs.Heap.Quiet
import HandleAlloc.Proofs.Heap.Resizing
import HandleAlloc.Proofs.Values
/-!
# Values on heaps

A new allocation on a sound heap reads what is written to it (`Issued.granted`), so zeroed
allocations and stored values are what they should be (`Sound.provides`). The first bytes of a live
allocation stay while other allocations come and go, and move with it
(`Ledger.Untouched.startsWith`); so a value is read as long as its allocation is live and large
enough, and is not written to.
-/

namespace HandleAlloc

namespace Heap

section State

variable {heap after : Heap} {handle : Handle} {header : Header} {size alignment : Nat}
  {data : ByteArray}

theorem extract_contents_store (hdecoded : heap.header? handle = some header)
    (hle : data.size ≤ header.size) :
    (contents (store ⟨0, handle.offset, header.size⟩ 0 data heap) handle header).extract 0
      data.size = data := by
  have hstop : handle.offset + header.size ≤ heap.memory.size :=
    (within_of_header? hdecoded).stop_le
  have hfits : handle.offset + data.size ≤ heap.memory.size := by omega
  rw [extract_contents hle, store, if_pos (by rwa [Nat.zero_add])]
  exact Memory.extract_write hfits

theorem Issued.granted (hissued : heap.Issued size alignment handle header after) :
    Granted after handle header ⟨0, handle.offset, header.size⟩ where
  region_run := region_run_of_decoded hissued.decoded
  size_eq := rfl
  header_eq data := congrArg Outcome.reply (call_header_run (hissued.store 0 data).decoded)
  bytes_eq data hle := by
    have hstored := (hissued.store 0 data).decoded
    exact ⟨_, congrArg Outcome.reply (call_bytes_run hstored), size_contents hstored,
      extract_contents_store hissued.decoded hle⟩

theorem alignedAlloc_granted (hsound : heap.Sound) (size : Nat) :
    ((Call.alignedAlloc size defaultAlignment).run heap).Settles heap fun handle after =>
      ∃ header place, size ≤ place.size ∧ Granted after handle header place := by
  apply (alignedAlloc_settles hsound size defaultAlignment).imp
  rintro handle after ⟨header, hissued⟩
  exact ⟨header, _, hissued.serves.le_size, hissued.granted⟩

theorem Sound.provides (hsound : heap.Sound) : Provides heap :=
  provides_of_granted (alignedAlloc_granted hsound)

end State

namespace Ledger

/-- What happens to an allocation that nothing is written to: well-behaved calls, none of which
frees it. It had the first handle, and has the last one; whenever it is resized, it gets `least`
bytes or more. -/
inductive Untouched (first : Ledger) (handle : Handle) (least : Nat) : Ledger → Handle → Prop where
  | refl : Untouched first handle least first handle
  /-- A call on other allocations, a query, or a call that fails. -/
  | other {ledger : Ledger} {current : Handle}
    (huntouched : Untouched first handle least ledger current) {α : Type} (call : Call α)
    (hallows : ledger.Allows call)
    (hkeeps : call.taken? = some current → ∃ fault, (call.run ledger.heap).reply = .error fault)
    (hspares : call.overwritten? ≠ some current) :
    Untouched first handle least (ledger.next call) current
  | resized {ledger : Ledger} {current moved : Handle}
    (huntouched : Untouched first handle least ledger current) (newSize : Nat)
    (hle : least ≤ newSize)
    (hreply : ((Call.realloc current newSize).run ledger.heap).reply = .ok moved) :
    Untouched first handle least (ledger.next (.realloc current newSize)) moved

section Untouched

variable {α : Type} {ledger first last : Ledger} {call : Call α} {handle current moved : Handle}
  {data : ByteArray} {newSize : Nat}

theorem next_of_error {fault : Fault} (hsound : ledger.heap.Sound)
    (hfault : (call.run ledger.heap).reply = .error fault) : ledger.next call = ledger := by
  have hstate := (call_settles hsound call).state_eq_of_error hfault
  simp only [next, hfault, hstate]

theorem Balanced.next (hbalanced : ledger.Balanced) (hallows : ledger.Allows call) :
    (ledger.next call).Balanced := by
  obtain ⟨_, _, _, _, hturn⟩ := exists_turn hbalanced hallows
  exact hturn.balanced hbalanced

theorem Balanced.reply_bytes_next (hbalanced : ledger.Balanced) (hallows : ledger.Allows call)
    (hmem : handle ∈ ledger.live.map Holding.handle)
    (hkeeps : call.taken? = some handle → ∃ fault, (call.run ledger.heap).reply = .error fault)
    (hspares : call.overwritten? ≠ some handle) :
    handle ∈ (ledger.next call).live.map Holding.handle ∧
      ((Call.bytes handle).run (ledger.next call).heap).reply =
        ((Call.bytes handle).run ledger.heap).reply := by
  by_cases hhandle : call.handle? = some handle
  case pos =>
    have hnext : ledger.next call = ledger := by
      cases call <;> cases hhandle
      case realloc | free =>
        obtain ⟨fault, hfault⟩ := hkeeps rfl
        exact next_of_error hbalanced.sound hfault
      case overwrite => exact absurd rfl hspares
      case header | bytes | read => exact next_of_isQuery hbalanced.sound rfl
    rw [hnext]
    exact ⟨hmem, rfl⟩
  case neg =>
    obtain ⟨holding, hlisted, rfl⟩ := List.mem_map.mp hmem
    obtain ⟨_, _, _, _, hturn⟩ := exists_turn hbalanced hallows
    obtain ⟨hlive, hbytes⟩ := hturn.other hbalanced hlisted hhandle
    refine ⟨List.mem_map_of_mem hlive, ?_⟩
    have hsame : (ledger.next call).heap.contents holding.handle holding.header =
        ledger.heap.contents holding.handle holding.header := by
      apply Memory.extract_congr hturn.exchange.totalSize_eq
      intro i hi
      apply hbytes
      have hstart := (hbalanced.serves holding hlisted).start_le
      rw [mem_interval] at hi
      rw [Holding.bytes, Header.mem_bytes]
      omega
    rw [call_bytes_run ((hturn.balanced hbalanced).decoded holding hlive),
      call_bytes_run (hbalanced.decoded holding hlisted), hsame]

theorem Balanced.startsWith_realloc (hbalanced : ledger.Balanced)
    (hmem : handle ∈ ledger.live.map Holding.handle)
    (hstarts : StartsWith ledger.heap handle data) (hle : data.size ≤ newSize)
    (hreply : ((Call.realloc handle newSize).run ledger.heap).reply = .ok moved) :
    moved ∈ (ledger.next (.realloc handle newSize)).live.map Holding.handle ∧
      StartsWith (ledger.next (.realloc handle newSize)).heap moved data := by
  have hsound := hbalanced.sound
  obtain ⟨old, header, hoccupied, hpos, hresized⟩ :=
    (realloc_settles hsound handle newSize).effect_of_reply hreply
  constructor
  · obtain ⟨holding, hlisted, rfl⟩ := List.mem_map.mp hmem
    rw [live_next_of_ok hreply, settle, List.map_map]
    exact List.mem_map.mpr ⟨holding, hlisted, by simp⟩
  · obtain ⟨contents, hbytes, hdata⟩ := hstarts
    rw [call_bytes_run hoccupied.decoded, Reply.ok.injEq] at hbytes
    subst hbytes
    have hlength := congrArg ByteArray.size hdata
    rw [ByteArray.size_extract, size_contents hoccupied.decoded] at hlength
    refine ⟨_, congrArg Outcome.reply
      (call_bytes_run (hresized.decoded hsound hoccupied hpos)), ?_⟩
    exact extract_eq_of_extract_eq (by omega) (hresized.extract_eq hsound hoccupied hpos) hdata

theorem Untouched.startsWith (huntouched : Untouched first handle data.size last current)
    (hbalanced : first.Balanced) (hmem : handle ∈ first.live.map Holding.handle)
    (hstarts : StartsWith first.heap handle data) :
    last.Balanced ∧ current ∈ last.live.map Holding.handle ∧
      StartsWith last.heap current data := by
  induction huntouched with
  | refl => exact ⟨hbalanced, hmem, hstarts⟩
  | other _ call hallows hkeeps hspares ih =>
    obtain ⟨hbalanced, hmem, contents, hbytes, hdata⟩ := ih
    obtain ⟨hlive, hsame⟩ := hbalanced.reply_bytes_next hallows hmem hkeeps hspares
    exact ⟨hbalanced.next hallows, hlive, contents, hsame.trans hbytes, hdata⟩
  | resized _ newSize hle hreply ih =>
    obtain ⟨hbalanced, hmem, hstarts⟩ := ih
    refine ⟨hbalanced.next ?_, hbalanced.startsWith_realloc hmem hstarts hle hreply⟩
    rintro _ ⟨⟩
    exact hmem

end Untouched

section Reachable

variable {α σ : Type} [PlainData α] {supply : Supply} {settings : HeapSettings} {state : σ}
  {start : Heap} {ledger last : Ledger} {handle current : Handle} {value : α}

/-- A value goes on to be read from an allocation that nothing else is written to. -/
theorem Untouched.read (hcreated : (create supply settings state).reply = .ok start)
    (hreachable : Reachable start ledger)
    (hreply : ((Call.construct value).run ledger.heap).reply = .ok handle)
    (huntouched : Untouched (ledger.next (.construct value)) handle (PlainData.size α) last
      current) :
    ((Call.read current : Call α).run last.heap).reply = .ok value := by
  have hbalanced := hreachable.balanced_of_created hcreated
  have hanswers := answers_construct (alignedAlloc_granted hbalanced.sound) value
  have hmem : handle ∈ (ledger.next (.construct value)).live.map Holding.handle := by
    rw [live_next_of_ok hreply, settle_of_request rfl rfl, List.map_cons]
    exact List.mem_cons_self
  have hallows : ledger.Allows (.construct value) := nofun
  rw [← PlainData.size_bytes value] at huntouched
  obtain ⟨_, _, hstarts⟩ := huntouched.startsWith (hbalanced.next hallows) hmem
    (hanswers.settles.effect_of_reply hreply)
  exact hstarts.read

end Reachable

end Ledger

end Heap

end HandleAlloc
