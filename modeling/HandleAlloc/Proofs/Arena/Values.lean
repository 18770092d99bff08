import HandleAlloc.Proofs.Arena.Resizing
import HandleAlloc.Proofs.Values
/-!
# Values in arenas

A new allocation in an arena reads what is written to it (`Issued.granted`), so zeroed allocations
and stored values are what they should be (`Sound.provides`). In a session, the first bytes of a
live allocation stay while other allocations come and go and scopes are opened and ended, and move
with it to later pages (`Register.Untouched.startsWith`). So a value is read as long as its
allocation is live and large enough, and is not written to.
-/

namespace HandleAlloc

namespace Arena

section State

variable {arena after : Arena} {base : Cursor} {handle : Handle} {header : Header}
  {size alignment : Nat} {data : ByteArray}

theorem load_store (hdecoded : arena.decoded? handle = some header)
    (hle : data.size ≤ header.size) :
    load ⟨handle.page, handle.offset, data.size⟩
      (store ⟨handle.page, handle.offset, header.size⟩ 0 data arena) = data := by
  obtain ⟨page, hpage, hread⟩ := decoded?_eq_some_iff.mp hdecoded
  have hstop := (Header.within_of_read? hread).stop_le
  have hfits : handle.offset + data.size ≤ page.size := by omega
  rw [store, if_pos (by rwa [Nat.zero_add])]
  simp only [load, getElem?_pages_updatePage, hpage, Option.map_some, ↓reduceIte, Nat.add_zero]
  exact Memory.extract_write hfits

theorem Issued.granted (hissued : arena.Issued base size alignment handle header after) :
    Granted after handle header ⟨handle.page, handle.offset, header.size⟩ where
  region_run := by
    rw [region_run_eq, region?, hissued.header?_eq]
    rfl
  size_eq := rfl
  header_eq data := congrArg Outcome.reply (call_header_run (hissued.store 0 data).header?_eq)
  bytes_eq data hle := by
    have hstored := hissued.store 0 data
    refine ⟨_, congrArg Outcome.reply (call_bytes_run hstored.header?_eq),
      size_load hstored.decoded, ?_⟩
    rw [extract_load _ _ hle]
    exact load_store hissued.decoded hle

theorem alignedAlloc_granted (hsound : arena.Sound) (size : Nat) :
    ((Call.alignedAlloc size defaultAlignment).run arena).Settles arena fun handle after =>
      ∃ header place, size ≤ place.size ∧ Granted after handle header place := by
  apply (alignedAlloc_settles hsound defaultAlignment_lt size).imp
  rintro handle after ⟨header, hissued⟩
  exact ⟨header, _, hissued.serves.le_size, hissued.granted⟩

theorem Sound.provides (hsound : arena.Sound) : Provides arena :=
  provides_of_granted (alignedAlloc_granted hsound)

end State

namespace Register

/-- What happens to an allocation that nothing is written to: well-behaved calls, none of which
frees it, and scopes that are opened, and ended without taking it back. It had the first handle, and
has the last one; whenever it is resized, it gets `least` bytes or more. -/
inductive Untouched (first : Register) (handle : Handle) (least : Nat) :
    Register → Handle → Prop where
  | refl : Untouched first handle least first handle
  /-- A call on other allocations, a query, or a call that fails. -/
  | other {register : Register} {current : Handle}
    (huntouched : Untouched first handle least register current) {α : Type} (call : Call α)
    (hallows : register.Allows (.call call))
    (hkeeps : call.taken? = some current →
      ∃ fault, (register.session.perform call).reply = .error fault)
    (hspares : call.overwritten? ≠ some current) :
    Untouched first handle least (register.next (.call call)) current
  | resized {register : Register} {current moved : Handle}
    (huntouched : Untouched first handle least register current) (newSize : Nat)
    (hle : least ≤ newSize)
    (hreply : (register.session.perform (.realloc current newSize)).reply = .ok moved) :
    Untouched first handle least (register.next (.call (.realloc current newSize))) moved
  | entered {register : Register} {current : Handle}
    (huntouched : Untouched first handle least register current) :
    Untouched first handle least (register.next .enter) current
  | left {register : Register} {current : Handle}
    (huntouched : Untouched first handle least register current)
    (hallows : register.Allows .leave)
    (hlive : current ∈ (register.next .leave).live.map Holding.handle) :
    Untouched first handle least (register.next .leave) current
  | supplied {register : Register} {current : Handle}
    (huntouched : Untouched first handle least register current) (supply : Supply) :
    Untouched first handle least (register.next (.supply supply)) current

section Untouched

variable {α : Type} {settings : ArenaSettings} {start : Arena} {register first last : Register}
  {call : Call α} {handle current moved : Handle} {data : ByteArray} {newSize : Nat}

theorem Orderly.reply_bytes_next (horderly : register.Orderly settings)
    (hallows : register.Allows (.call call)) (hmem : handle ∈ register.live.map Holding.handle)
    (hkeeps : call.taken? = some handle →
      ∃ fault, (register.session.perform call).reply = .error fault)
    (hspares : call.overwritten? ≠ some handle) :
    handle ∈ (register.next (.call call)).live.map Holding.handle ∧
      ((Call.bytes handle).run (register.next (.call call)).session.arena).reply =
        ((Call.bytes handle).run register.session.arena).reply := by
  by_cases htaken : call.taken? = some handle
  case pos =>
    obtain ⟨fault, hfault⟩ := hkeeps htaken
    rw [next_of_error horderly hallows hfault]
    exact ⟨hmem, rfl⟩
  case neg =>
    obtain ⟨holding, hlisted, rfl⟩ := List.mem_map.mp hmem
    have hafter := horderly.next hallows
    obtain ⟨_, _, _, hturn⟩ | ⟨_, hwrites⟩ := horderly.exists_turn hallows
    · have hrest := (hturn.others holding hlisted).resolve_right htaken
      have hlive : holding ∈ (register.next (.call call)).live := by
        rw [hturn.live_eq]
        exact List.mem_append_right _ hrest
      refine ⟨List.mem_map_of_mem hlive, ?_⟩
      rw [call_bytes_run (hafter.header?_eq hlive), call_bytes_run (horderly.header?_eq hlisted),
        hturn.load_eq hrest (Nat.le_refl _)]
    · have hlive : holding ∈ (register.next (.call call)).live := hwrites.next_live.2 ▸ hlisted
      refine ⟨List.mem_map_of_mem hlive, ?_⟩
      rw [call_bytes_run (hafter.header?_eq hlive), call_bytes_run (horderly.header?_eq hlisted),
        hwrites.load_eq horderly hlisted hspares (Nat.le_refl _)]

theorem Orderly.reply_bytes_leave (horderly : register.Orderly settings)
    (hallows : register.Allows .leave)
    (hlive : handle ∈ (register.next .leave).live.map Holding.handle) :
    ((Call.bytes handle).run (register.next .leave).session.arena).reply =
      ((Call.bytes handle).run register.session.arena).reply := by
  obtain ⟨snapshot, snapshots, hsnapshots⟩ := List.exists_cons_of_ne_nil hallows
  have hafter := horderly.next hallows
  simp only [Register.next, Session.next_leave hsnapshots] at hlive hafter ⊢
  obtain ⟨holding, hmem, rfl⟩ := List.mem_map.mp hlive
  rw [call_bytes_run (hafter.header?_eq hmem),
    call_bytes_run (horderly.header?_eq (List.mem_filter.mp hmem).1)]
  rfl

theorem Orderly.reply_bytes_supply (horderly : register.Orderly settings)
    (hmem : handle ∈ register.live.map Holding.handle) (supply : Supply) :
    ((Call.bytes handle).run (register.next (.supply supply)).session.arena).reply =
      ((Call.bytes handle).run register.session.arena).reply := by
  have hallows : register.Allows (.supply supply) := trivial
  have hafter := horderly.next hallows
  obtain ⟨holding, hlisted, rfl⟩ := List.mem_map.mp hmem
  rw [call_bytes_run (hafter.header?_eq hlisted), call_bytes_run (horderly.header?_eq hlisted)]
  rfl

theorem Orderly.startsWith_realloc (horderly : register.Orderly settings)
    (haddressable : register.session.arena.Addressable)
    (hmem : handle ∈ register.live.map Holding.handle)
    (hstarts : StartsWith register.session.arena handle data) (hle : data.size ≤ newSize)
    (hreply : (register.session.perform (.realloc handle newSize)).reply = .ok moved) :
    let after := register.next (.call (.realloc handle newSize))
    moved ∈ after.live.map Holding.handle ∧ StartsWith after.session.arena moved data := by
  rw [Session.perform_eq] at hreply
  rw [next_of_ok (Outcome.eq_of_reply hreply)]
  refine ⟨List.mem_cons_self, ?_⟩
  obtain ⟨contents, hcontents, hdata⟩ := hstarts
  have hcarries := realloc_carries horderly.moored.valid.covers haddressable handle newSize
    fun old hold => horderly.serves hmem hold
  obtain ⟨old, _, hcarried⟩ := hcarries.effect_of_reply hreply
  obtain ⟨before, bytes, hbefore, hbytes, hsize, _, hsame⟩ := hcarried.bytes_eq
  rw [hcontents, Reply.ok.injEq] at hbefore
  subst hbefore
  have hlength := congrArg ByteArray.size hdata
  rw [ByteArray.size_extract] at hlength
  exact ⟨bytes, hbytes, extract_eq_of_extract_eq (by omega) hsame hdata⟩

theorem Untouched.startsWith (huntouched : Untouched first handle data.size last current)
    (hstart : Orderly settings ⟨⟨start, []⟩, []⟩) (haddressable : start.Addressable)
    (hreachable : Reachable start first) (hmem : handle ∈ first.live.map Holding.handle)
    (hstarts : StartsWith first.session.arena handle data) :
    Reachable start last ∧ current ∈ last.live.map Holding.handle ∧
      StartsWith last.session.arena current data := by
  induction huntouched with
  | refl => exact ⟨hreachable, hmem, hstarts⟩
  | other _ call hallows hkeeps hspares ih =>
    obtain ⟨hreachable, hmem, contents, hbytes, hdata⟩ := ih
    obtain ⟨hlive, hsame⟩ :=
      (hreachable.orderly hstart).reply_bytes_next hallows hmem hkeeps hspares
    exact ⟨hreachable.step _ hallows, hlive, contents, hsame.trans hbytes, hdata⟩
  | resized _ newSize hle hreply ih =>
    obtain ⟨hreachable, hmem, hstarts⟩ := ih
    have haddressable := (hreachable.session hstart).addressable hstart.moored haddressable
    obtain ⟨hlive, hmoved⟩ :=
      (hreachable.orderly hstart).startsWith_realloc haddressable hmem hstarts hle hreply
    refine ⟨hreachable.step _ ⟨nofun, ?_, nofun⟩, hlive, hmoved⟩
    rintro _ ⟨⟩
    exact hmem
  | entered _ ih =>
    obtain ⟨hreachable, hmem, hstarts⟩ := ih
    exact ⟨hreachable.step .enter trivial, hmem, hstarts⟩
  | left _ hallows hlive ih =>
    obtain ⟨hreachable, _, contents, hbytes, hdata⟩ := ih
    have hsame := (hreachable.orderly hstart).reply_bytes_leave hallows hlive
    exact ⟨hreachable.step .leave hallows, hlive, contents, hsame.trans hbytes, hdata⟩
  | supplied _ supply ih =>
    obtain ⟨hreachable, hmem, contents, hbytes, hdata⟩ := ih
    have hsame := (hreachable.orderly hstart).reply_bytes_supply hmem supply
    exact ⟨hreachable.step (.supply supply) trivial, hmem, contents, hsame.trans hbytes, hdata⟩

end Untouched

section Reachable

variable {α σ : Type} [PlainData α] {supply : Supply} {inlinePage : Nat} {settings : ArenaSettings}
  {state : σ} {start : Arena} {register last : Register} {handle current : Handle} {value : α}

/-- A value goes on to be read from an allocation that nothing else is written to. -/
theorem Untouched.read (hcreated : (create supply inlinePage settings state).reply = .ok start)
    (hinline : inlinePage < wordSize) (hreachable : Reachable start register)
    (hreply : (register.session.perform (.construct value)).reply = .ok handle)
    (huntouched : Untouched (register.next (.call (.construct value))) handle (PlainData.size α)
      last current) :
    (last.session.perform (.read current : Call α)).reply = .ok value := by
  obtain ⟨_, rfl⟩ := reply_create_eq_ok_iff.mp hcreated
  have hfresh := orderly_fresh supply inlinePage settings
  have horderly := hreachable.orderly hfresh
  have hallows : register.Allows (.call (.construct value)) :=
    ⟨by rintro _ ⟨⟩; exact defaultAlignment_lt, nofun, nofun⟩
  rw [Session.perform_eq] at hreply ⊢
  have hanswers := answers_construct (alignedAlloc_granted horderly.moored.valid.covers) value
  have hnext := next_of_ok (Outcome.eq_of_reply hreply)
  have hmem : handle ∈ (register.next (.call (.construct value))).live.map Holding.handle := by
    rw [hnext]
    exact List.mem_cons_self
  have hstarts := hanswers.settles.effect_of_reply hreply
  rw [← PlainData.size_bytes value] at huntouched
  obtain ⟨_, _, hstarts⟩ := huntouched.startsWith hfresh
    (Session.addressable_fresh supply hinline settings) (hreachable.step _ hallows) hmem
    (by rwa [hnext])
  exact hstarts.read

end Reachable

end Register

end Arena

end HandleAlloc
