import HandleAlloc.Proofs.Heap.Quiet
import HandleAlloc.Proofs.Heap.Shadow
/-!
# Which handles a validating heap accepts

On a heap that validates headers and that no client writes to, a handle that is not live reads an
acceptable header in a single case: it is the shadow of a live allocation (`Ledger.Shadows`). Any
other one is rejected by every call. There are shadows in buffers of 59904 bytes or more only.
-/

namespace HandleAlloc

open Memory

namespace Heap

namespace Ledger

/-! ## Live headers -/

section Live

variable {ledger : Ledger} {holding other : Holding} {position width x gap : Nat}

theorem Balanced.spells (hbalanced : ledger.Balanced) (hmem : holding ∈ ledger.live) :
    Spells ledger.heap.memory (holding.handle.offset - headerSize) holding.header :=
  spells_of_read? (header?_eq_some_iff.mp (hbalanced.decoded holding hmem)).2

theorem Balanced.stored (hbalanced : ledger.Balanced) (htotal : ledger.heap.totalSize ≤ 2 ^ 32)
    (hmem : holding ∈ ledger.live) :
    Stored (holding.handle.offset - headerSize) holding.header := by
  have hserves := hbalanced.serves holding hmem
  have hstart := hserves.start_le
  have hpos := hserves.pos
  have hle := hserves.le_size
  have hstop := (within_of_header? (hbalanced.decoded holding hmem)).stop_le
  have hplace : holding.handle.offset - headerSize + headerSize = holding.handle.offset := by omega
  refine ⟨?_, ?_, by omega, ?_, by omega, by omega⟩
  · rw [hserves.alignment_eq]
    exact hserves.power
  · rw [hplace, hserves.alignment_eq]
    exact hserves.aligned
  · rw [hserves.alignment_eq]
    exact hserves.padding_lt

theorem Balanced.start_le (hbalanced : ledger.Balanced) (hmem : holding ∈ ledger.live) :
    holding.header.start + headerSize ≤ holding.handle.offset :=
  (hbalanced.serves holding hmem).start_le

theorem Balanced.size_pos (hbalanced : ledger.Balanced) (hmem : holding ∈ ledger.live) :
    0 < holding.header.size :=
  Nat.lt_of_lt_of_le (hbalanced.serves holding hmem).pos (hbalanced.serves holding hmem).le_size

theorem Balanced.apart (hbalanced : ledger.Balanced) (hmem : holding ∈ ledger.live)
    (hother : other ∈ ledger.live) (hne : holding ≠ other) :
    holding.handle.offset + holding.header.size ≤ other.header.start ∨
      other.handle.offset + other.header.size ≤ holding.header.start := by
  obtain ⟨left, right, hsplit⟩ := List.append_of_mem hmem
  have hlive : ledger.live = left ++ [holding] ++ right := by rw [hsplit, List.append_cons]
  have hbefore := hbalanced.of_live_eq hlive
  have hlisted : other ∈ left ++ right := by
    rw [hlive, mem_around, List.mem_singleton] at hother
    exact hother.resolve_left hne.symm
  have hspan (holding : Holding) (hmem : holding ∈ ledger.live) :=
    (within_of_header? (hbalanced.decoded holding hmem)).start_lt
  by_contra hnot
  obtain ⟨i, hi, hshared⟩ :=
    (exists_mem_interval_iff (hspan holding hmem) (hspan other hother)).mpr (by omega)
  apply (hbefore.notMem (List.mem_flatMap.mpr ⟨other, hlisted, hshared⟩)).1
  exact List.mem_flatMap.mpr ⟨holding, List.mem_singleton_self _, hi⟩

theorem Balanced.offsets_apart (hbalanced : ledger.Balanced) (hmem : holding ∈ ledger.live)
    (hother : other ∈ ledger.live) : holding = other ∨
      holding.handle.offset + headerSize < other.handle.offset ∨
      other.handle.offset + headerSize < holding.handle.offset := by
  by_cases heq : holding = other
  · exact Or.inl heq
  · have happart := hbalanced.apart hmem hother heq
    have hsize := hbalanced.size_pos hmem
    have hotherSize := hbalanced.size_pos hother
    have hstart := hbalanced.start_le hmem
    have hotherStart := hbalanced.start_le hother
    omega

theorem Clean.exists_header (hclean : ledger.Clean)
    (hne : number ledger.heap.memory position width ≠ 0) :
    ∃ holding ∈ ledger.live,
      holding.handle.offset - headerSize < position + width ∧ position < holding.handle.offset := by
  simp only [ne_eq, number_eq_zero_iff, not_forall, mem_interval] at hne
  obtain ⟨i, hi, hbyte⟩ := hne
  obtain ⟨holding, hmem, hslot⟩ := List.mem_flatMap.mp (hclean i hbyte)
  rw [Header.slot, mem_interval] at hslot
  exact ⟨holding, hmem, by omega, by omega⟩

/-- Up to seven bytes behind a live header hold nothing if no other header reaches into them. -/
theorem Balanced.number_behind (hbalanced : ledger.Balanced) (hclean : ledger.Clean)
    (hmem : holding ∈ ledger.live) (hgap : gap ≤ 7)
    (hnone : ∀ other ∈ ledger.live, holding.handle.offset + gap ≤ other.handle.offset - headerSize ∨
      other.handle.offset ≤ holding.handle.offset) :
    number ledger.heap.memory (holding.handle.offset + gap - 8) 8 =
      holding.handle.offset / 256 ^ gap := by
  have hserves := hbalanced.serves holding hmem
  have hstart := hserves.start_le
  have hself := (hbalanced.spells hmem).selfOffset_eq
  rw [hserves.selfOffset_eq] at hself
  rw [headerSize] at hstart hself hnone
  have hzero : number ledger.heap.memory (holding.handle.offset - 8 + 8) gap = 0 := by
    by_contra hne
    obtain ⟨other, hother, hfirst, hlast⟩ := hclean.exists_header hne
    rw [headerSize] at hfirst
    have hreach := hnone other hother
    omega
  have hplace : holding.handle.offset - 8 + gap = holding.handle.offset + gap - 8 := by omega
  rw [show holding.handle.offset - 32 + 24 = holding.handle.offset - 8 by omega] at hself
  rw [← hplace, number_of_zero_behind (by omega) hzero, hself]

theorem Balanced.preceded (hbalanced : ledger.Balanced) (hclean : ledger.Clean)
    (hmem : holding ∈ ledger.live) (hroom : 8 ≤ holding.handle.offset - headerSize) :
    Preceded (holding.handle.offset - headerSize) holding.header.start
      (number ledger.heap.memory (holding.handle.offset - headerSize - 8) 8) := by
  by_cases hzero : number ledger.heap.memory (holding.handle.offset - headerSize - 8) 8 = 0
  · exact Or.inl hzero
  right
  obtain ⟨other, hother, hfirst, hlast⟩ := hclean.exists_header hzero
  have hstart := hbalanced.start_le hmem
  have hotherStart := hbalanced.start_le hother
  have hsize := hbalanced.size_pos hother
  have happart := hbalanced.apart hmem hother (by rintro rfl; omega)
  obtain ⟨gap, hgap⟩ : ∃ gap, holding.handle.offset - headerSize = other.handle.offset + gap :=
    Nat.exists_eq_add_of_le (by omega)
  refine ⟨gap, by omega, by omega, by omega, by omega, ?_⟩
  rw [hgap, Nat.add_sub_cancel]
  apply hbalanced.number_behind hclean hother (by omega)
  intro third hthird
  obtain rfl | hthirdOther := hbalanced.offsets_apart hthird hother
  · exact Or.inr (Nat.le_refl _)
  obtain rfl | hthirdHolding := hbalanced.offsets_apart hthird hmem
  · exact Or.inl (Nat.le_of_eq hgap.symm)
  · rw [headerSize] at *
    omega

/-- Where a header names its own offset that is not that of a live allocation, a live header
overlaps it. -/
theorem Balanced.exists_around (hbalanced : ledger.Balanced) (hclean : ledger.Clean)
    (hx : headerSize ≤ x) (hself : number ledger.heap.memory (x - 8) 8 = x)
    (hdead : ∀ holding ∈ ledger.live, holding.handle.offset ≠ x) :
    ∃ holding ∈ ledger.live,
      holding.handle.offset - headerSize < x ∧ x < holding.handle.offset := by
  by_contra hnone
  simp only [not_exists, not_and, Nat.not_lt] at hnone
  rw [headerSize] at *
  have hne : number ledger.heap.memory (x - 8) 8 ≠ 0 := by omega
  obtain ⟨holding, hmem, hfirst, hlast⟩ := hclean.exists_header hne
  rw [headerSize] at hfirst
  -- The header ends a few bytes before `x`: what is read of its offset is too small.
  have hend := hnone holding hmem (by omega)
  have hother := hdead holding hmem
  obtain ⟨gap, hgap⟩ : ∃ gap, x = holding.handle.offset + gap := Nat.exists_eq_add_of_le hend
  have hnumber : number ledger.heap.memory (holding.handle.offset + gap - 8) 8 =
      holding.handle.offset / 256 ^ gap := by
    apply hbalanced.number_behind hclean hmem (by omega)
    intro third hthird
    have hthirdNone := hnone third hthird
    obtain rfl | hthirdHolding := hbalanced.offsets_apart hthird hmem
    · exact Or.inr (Nat.le_refl _)
    · rw [headerSize] at *
      omega
  rw [← hgap, hself] at hnumber
  have hle : holding.handle.offset / 256 ^ gap ≤ holding.handle.offset := Nat.div_le_self _ _
  omega

end Live

/-! ## Dead handles -/

/-- A handle is a shadow of a live allocation if the bytes of its header, read early, are those of
an acceptable header of the handle. -/
def Shadows (ledger : Ledger) (handle : Handle) : Prop :=
  handle.page = 0 ∧
    number ledger.heap.memory (handle.offset - headerSize) 8 ≤ handle.offset - headerSize ∧
    ∃ digits, ∃ holding ∈ ledger.live, Shadowed ledger.heap.totalSize handle.offset digits
      (holding.handle.offset - headerSize) holding.header

section Dead

variable {σ α : Type} {supply : Supply} {settings : HeapSettings} {state : σ} {start : Heap}
  {ledger : Ledger} {call : Call α} {handle : Handle} {holding : Holding} {digits : Nat}

theorem Balanced.header?_eq_none (hbalanced : ledger.Balanced) (hclean : ledger.Clean)
    (hvalidate : ledger.heap.validate = true) (htotal : ledger.heap.totalSize ≤ 2 ^ 32)
    (hdead : handle ∉ ledger.live.map Holding.handle) (hshadow : ¬ ledger.Shadows handle) :
    ledger.heap.header? handle = none := by
  rw [Option.eq_none_iff_forall_ne_some]
  intro read hdecoded
  obtain ⟨hpage, hread⟩ := header?_eq_some_iff.mp hdecoded
  have hwithin := within_of_header? hdecoded
  have hgenuine := isGenuine_of_header? hdecoded hvalidate
  have hspells := spells_of_read? hread
  have hoffset := hwithin.range.1
  have hself : number ledger.heap.memory (handle.offset - 8) 8 = handle.offset := by
    have hplace : handle.offset - headerSize + 24 = handle.offset - 8 := by
      rw [headerSize] at hoffset ⊢
      omega
    rw [← hplace, hspells.selfOffset_eq]
    exact (Header.isGenuine_iff.mp hgenuine).1
  have hother (holding : Holding) (hmem : holding ∈ ledger.live) :
      holding.handle.offset ≠ handle.offset := by
    intro hsame
    have heq : holding.handle = handle := by
      rw [hbalanced.handle_eq hmem, hsame, ← hpage]
    exact hdead (heq ▸ List.mem_map_of_mem hmem)
  obtain ⟨holding, hmem, hafter, hbefore⟩ := hbalanced.exists_around hclean hoffset hself hother
  have hcancel : holding.handle.offset - headerSize + headerSize = holding.handle.offset :=
    Nat.sub_add_cancel (Nat.le_of_add_left_le (hbalanced.start_le hmem))
  have hselfLive := (hbalanced.serves holding hmem).selfOffset_eq
  rw [← hcancel] at hselfLive hbefore
  obtain ⟨digits, hshadowed⟩ := hspells.shadowed (hbalanced.spells hmem)
    (hbalanced.stored htotal hmem) hselfLive (hbalanced.preceded hclean hmem) hgenuine hoffset
    hwithin.stop_le htotal hafter hbefore
  have hstart := (Header.describesRegion_iff.mp (Header.read?_eq_some_iff.mp hread).2.2.1).2.1
  rw [← hspells.start_eq] at hstart
  exact hshadow ⟨hpage, hstart, digits, holding, hmem, hshadowed⟩

theorem Balanced.header?_of_shadowed (hbalanced : ledger.Balanced) (hclean : ledger.Clean)
    (hmem : holding ∈ ledger.live) (hpage : handle.page = 0)
    (hstart : number ledger.heap.memory (handle.offset - headerSize) 8 ≤ handle.offset - headerSize)
    (hshadowed : Shadowed ledger.heap.totalSize handle.offset digits
      (holding.handle.offset - headerSize) holding.header) :
    ledger.heap.header? handle = some ⟨number ledger.heap.memory (handle.offset - headerSize) 8,
      (holding.handle.offset - headerSize) * 256 ^ digits, handle.offset, handle.offset⟩ := by
  have hx := hshadowed.x_eq
  have hposition := hshadowed.position_eq
  have hstop := hshadowed.stop_le
  have hplace : 256 ≤ handle.offset ∧ handle.offset ≤ 65536 ∧ 1 ≤ digits ∧ digits ≤ 2 := by
    obtain rfl | rfl := hshadowed.digits_mem <;> omega
  have hroom : 8 ≤ holding.handle.offset - headerSize := by
    rw [hposition, headerSize]
    omega
  have hbefore := (hbalanced.preceded hclean hmem hroom).le
  obtain ⟨hstartEq, hsizeEq, halignmentEq, hselfEq⟩ :=
    (hbalanced.spells hmem).of_shadowed hshadowed (by omega)
  have hrange : headerSize ≤ handle.offset ∧ handle.offset ≤ ledger.heap.memory.size := by
    rw [totalSize] at hstop
    rw [headerSize]
    omega
  have hpower : handle.offset.isPowerOfTwo := by
    rw [hx, show 256 = 2 ^ 8 from rfl, ← Nat.pow_mul]
    exact ⟨_, rfl⟩
  have hpos : (holding.handle.offset - headerSize) * 256 ^ digits ≠ 0 :=
    Nat.mul_ne_zero (by omega) (by simp)
  refine header?_eq_some_iff.mpr ⟨hpage, Header.read?_eq_some_iff.mpr ⟨hrange, ?_, ?_, fun _ => ?_⟩⟩
  · rw [Header.decode_extract hrange.1 hrange.2, hsizeEq, halignmentEq, hselfEq]
  · exact Header.describesRegion_iff.mpr
      ⟨hpower, hstart, Nat.lt_of_le_of_lt hstop hbalanced.sound.totalSize_lt, hstop⟩
  · exact Header.isGenuine_iff.mpr ⟨rfl, hpos, Nat.mod_self _⟩

theorem Shadows.le_totalSize (hshadows : ledger.Shadows handle) :
    59904 ≤ ledger.heap.totalSize := by
  obtain ⟨_, _, _, _, _, hshadowed⟩ := hshadows
  exact hshadowed.le_limit

theorem Reachable.validate_eq (hreachable : Reachable start ledger)
    (hstart : Balanced ⟨start, []⟩) : ledger.heap.validate = start.validate := by
  induction hreachable with
  | start => rfl
  | step hreachable call hallows ih =>
    obtain ⟨_, _, _, _, hturn⟩ := exists_turn (hreachable.balanced hstart).1 hallows
    exact hturn.exchange.validate_eq.trans ih

/-- As long as nothing is written, a heap that validates headers rejects every handle that is
neither live nor a shadow of a live one, whatever it is used for. -/
theorem dead_rejected (hcreated : (create supply settings state).reply = .ok start)
    (hvalidate : settings.validateHeaders = true) (htotal : settings.totalSize ≤ 2 ^ 32)
    (hquiet : Quiet start ledger) (hdead : handle ∉ ledger.live.map Holding.handle)
    (hshadow : ¬ ledger.Shadows handle) (hhandle : call.handle? = some handle) :
    call.run ledger.heap = .failed (.invalidHandle ledger.heap.name handle) ledger.heap ∨
      call.run ledger.heap = .failed (.doubleFree ledger.heap.name handle) ledger.heap := by
  obtain ⟨hpos, hgranted, rfl⟩ := reply_create_eq_ok_iff.mp hcreated
  have hfresh := balanced_fresh hpos hgranted
  obtain ⟨hbalanced, hsize⟩ := hquiet.reachable.balanced hfresh
  rw [← totalSize_fresh, ← hsize] at htotal
  have hclean := hquiet.clean hfresh (clean_fresh settings)
  have hvalidating := (hquiet.reachable.validate_eq hfresh).trans hvalidate
  exact run_of_header?_eq_none hbalanced.sound hhandle
    (hbalanced.header?_eq_none hclean hvalidating htotal hdead hshadow)

/-- The handle that a move leaves behind. -/
theorem dead_rejected_of_move :
    let start := fresh ⟨"general", 192, true⟩
    let second := next (next ⟨start, []⟩ (.alloc 16)) (.alloc 16)
    let moved := second.next (.realloc ⟨0, 32⟩ 40)
    moved.live.map Holding.handle = [⟨0, 80⟩, ⟨0, 128⟩] ∧
      ((Call.header ⟨0, 32⟩).run moved.heap =
          .failed (.invalidHandle moved.heap.name ⟨0, 32⟩) moved.heap ∨
        (Call.header ⟨0, 32⟩).run moved.heap =
          .failed (.doubleFree moved.heap.name ⟨0, 32⟩) moved.heap) := by
  intro start second moved
  have hcreated : (create Supply.ample ⟨"general", 192, true⟩ ()).reply = .ok start :=
    reply_create_eq_ok_iff.mpr ⟨by decide, by decide, rfl⟩
  have hsecond : Quiet start second :=
    (Quiet.start.step (.alloc 16) nofun rfl).step (.alloc 16) nofun rfl
  have hmoved : Quiet start moved := hsecond.step (.realloc ⟨0, 32⟩ 40) (by
    rintro handle ⟨⟩
    decide +kernel) rfl
  have hlive : moved.live.map Holding.handle = [⟨0, 80⟩, ⟨0, 128⟩] := by decide +kernel
  have hdead : ⟨0, 32⟩ ∉ moved.live.map Holding.handle := by
    rw [hlive]
    decide
  have hshadow : ¬ moved.Shadows ⟨0, 32⟩ := by
    intro hshadows
    have hsize : moved.heap.totalSize = 192 := by decide +kernel
    have hle := hshadows.le_totalSize
    omega
  have htotal : 192 ≤ 2 ^ 32 := by omega
  exact ⟨hlive, dead_rejected hcreated rfl htotal hmoved hdead hshadow rfl⟩

theorem next_alignedAlloc {fit : Fit} {size alignment : Nat} (hsound : ledger.heap.Sound)
    (halignment : alignment.isPowerOfTwo) (hsize : 0 < size)
    (hfit : ledger.heap.blocks.bestFit? size alignment = some fit) :
    ledger.next (.alignedAlloc size alignment) = ⟨ledger.heap.granted fit size alignment,
      ⟨⟨0, fit.offset⟩, size, alignment, ledger.heap.grant fit size alignment⟩ :: ledger.live⟩ := by
  have hfitting := FreeList.fitting_of_bestFit? halignment hfit
  have hrun : (Call.alignedAlloc size alignment).run ledger.heap =
      ⟨.ok ⟨0, fit.offset⟩, ledger.heap.granted fit size alignment, _⟩ :=
    (alignedAlloc_run hsound size alignment).trans (by
      rw [if_neg (not_not_intro halignment), if_neg (Nat.ne_of_gt hsize), hfit])
  rw [next_of_ok hrun, settle_of_request rfl rfl,
    written_eq (header?_granted hsound hfitting halignment hsize)]

/-- Behind an allocation of 201 bytes one of a single byte casts a shadow, at the offset 256. -/
theorem shadow_accepted :
    let start := fresh ⟨"general", 65536, true⟩
    let first := next ⟨start, []⟩ (.alignedAlloc 201 1)
    let second := first.next (.alignedAlloc 1 1)
    Quiet start second ∧ second.live.map Holding.handle = [⟨0, 265⟩, ⟨0, 32⟩] ∧
      ((Call.header ⟨0, 256⟩).run second.heap).reply = .ok ⟨0, 59648, 256, 256⟩ := by
  intro start first second
  have hquietFirst : Quiet start first := Quiet.start.step (.alignedAlloc 201 1) nofun rfl
  have hquiet : Quiet start second := hquietFirst.step (.alignedAlloc 1 1) nofun rfl
  have hgranted : Supply.ample.grants 65536 = true := by decide
  have hfresh : Balanced ⟨start, []⟩ := balanced_fresh (by simp) hgranted
  obtain ⟨hbalanced, htotal⟩ := hquiet.reachable.balanced hfresh
  have hsize : second.heap.totalSize = 65536 := htotal.trans (totalSize_fresh _)
  have hclean := hquiet.clean hfresh (clean_fresh _)
  -- The first allocation ends at 233, where the second one starts.
  have hfit : FreeList.bestFit? [⟨0, 65536⟩] 201 1 = some ⟨0, ⟨0, 65536⟩, 32⟩ := by decide
  have hfirst : first = ⟨start.granted _ 201 1, [⟨⟨0, 32⟩, 201, 1, ⟨0, 201, 1, 32⟩⟩]⟩ :=
    next_alignedAlloc hfresh.sound ⟨0, rfl⟩ (by decide) hfit
  have hblocks : first.heap.blocks = [⟨233, 65303⟩] := by rw [hfirst]; rfl
  have hnextFit : first.heap.blocks.bestFit? 1 1 = some ⟨0, ⟨233, 65303⟩, 265⟩ := by
    rw [hblocks]
    decide
  have hgrant : first.heap.grant ⟨0, ⟨233, 65303⟩, 265⟩ 1 1 = ⟨233, 1, 1, 265⟩ := by
    rw [grant, hblocks]
    rfl
  have hlive : second.live =
      [⟨⟨0, 265⟩, 1, 1, ⟨233, 1, 1, 265⟩⟩, ⟨⟨0, 32⟩, 201, 1, ⟨0, 201, 1, 32⟩⟩] := by
    rw [show second = _ from next_alignedAlloc (hquietFirst.reachable.balanced hfresh).1.sound
      ⟨0, rfl⟩ (by decide) hnextFit, hgrant, hfirst]
  have hzero : number second.heap.memory (256 - headerSize) 8 = 0 := by
    by_contra hne
    obtain ⟨holding, hmem, hafter, hbefore⟩ := hclean.exists_header hne
    rw [hlive, List.mem_cons, List.mem_singleton] at hmem
    obtain rfl | rfl := hmem <;> simp only [headerSize] at hafter hbefore <;> omega
  have hshadowed : Shadowed second.heap.totalSize 256 1 (265 - headerSize) ⟨233, 1, 1, 265⟩ :=
    ⟨Or.inl rfl, rfl, rfl, rfl, by rw [hsize, headerSize]; omega⟩
  have hmem : ⟨⟨0, 265⟩, 1, 1, ⟨233, 1, 1, 265⟩⟩ ∈ second.live := by
    rw [hlive]
    exact List.mem_cons_self
  have hpage : (⟨0, 256⟩ : Handle).page = 0 := rfl
  have hstart : number second.heap.memory (256 - headerSize) 8 ≤ 256 - headerSize := by
    rw [hzero]
    exact Nat.zero_le _
  have hheader := hbalanced.header?_of_shadowed hclean hmem hpage hstart hshadowed
  rw [hzero] at hheader
  have hrun := header_run ⟨0, 256⟩ second.heap
  rw [hheader] at hrun
  exact ⟨hquiet, by rw [hlive]; rfl, congrArg Outcome.reply hrun⟩

end Dead

end Ledger

end Heap

end HandleAlloc
