import HandleAlloc.Proofs.Arena.Placement
import HandleAlloc.Proofs.Arena.Survival
/-!
# Resizing the topmost allocation

An allocation that is resized has exactly the bytes that were asked for, the first of them are those
that it had, and it is topmost again (`Carried`). It keeps its handle just if its new bytes end
within its page; else it moves to the start of the next one, and its old handle is rejected, as its
header was wiped.
-/

namespace HandleAlloc

namespace Arena

open HandleAlloc.Action

variable {arena after : Arena} {handle moved source target : Handle} {header old : Header}
  {size newSize : Nat}

/-! ## The bytes of a moved allocation -/

theorem load_wiped {place : Region} (hpage : place.page ≠ handle.page) :
    load place (arena.wiped handle) = load place arena :=
  load_congr (pageLength?_wiped _) fun _ _ => byte?_updatePage fun _ hsame => absurd hsame hpage

theorem load_copied (hsource : arena.Covers ⟨source.page, source.offset + size⟩)
    (htarget : arena.Covers ⟨target.page, target.offset + size⟩) :
    load ⟨target.page, target.offset, size⟩ (arena.copied source target size) =
      load ⟨source.page, source.offset, size⟩ arena := by
  obtain ⟨_, hlength, hstop⟩ := hsource
  obtain ⟨_, hroom, hend⟩ := htarget
  obtain ⟨page, hpage, rfl⟩ := pageLength?_eq_some_iff.mp hlength
  obtain ⟨targetPage, htargetPage, rfl⟩ := pageLength?_eq_some_iff.mp hroom
  simp only at hpage hstop htargetPage hend
  have hsize : (page.extract source.offset (source.offset + size)).size = size := by
    rw [ByteArray.size_extract]
    omega
  have hwrite := Memory.extract_write (show
    target.offset + (page.extract source.offset (source.offset + size)).size ≤ targetPage.size by
      omega)
  rw [hsize] at hwrite
  simp only [load, copied, getElem?_pages_updatePage, hpage, htargetPage, Option.getD_some,
    Option.map_some, ↓reduceIte, hwrite]

theorem load_relocated (hsound : arena.Sound) (htop : arena.Topmost handle old)
    (hserves : old.Serves handle.offset old.size old.alignment) (hpos : 0 < newSize)
    (hword : required newSize old.alignment < wordSize) (hle : old.size ≤ newSize) :
    load ⟨arena.cursor.page + 1, leastMultiple headerSize old.alignment, old.size⟩
        (arena.relocated handle old newSize) =
      load ⟨handle.page, handle.offset, old.size⟩ arena := by
  obtain ⟨hpage, _⟩ := Handle.stop_eq_iff.mp htop.stop_eq
  have hissued := spilled_issued hsound hserves.power hpos hword
  have hsource := hissued.kept.covers (covers_stop htop.decoded) (Nat.le_of_eq hpage)
  obtain ⟨length, hlength, hstop⟩ := covers_stop hissued.decoded
  have hkept : load ⟨handle.page, handle.offset, old.size⟩ (arena.spilled newSize old.alignment) =
      load ⟨handle.page, handle.offset, old.size⟩ arena :=
    hissued.kept.load_eq (le_of_eq htop.stop_eq)
  have hother : arena.cursor.page + 1 ≠ handle.page := hpage ▸ Nat.succ_ne_self _
  rw [relocated, load_wiped hother, ← hkept]
  exact load_copied hsource ⟨length, hlength, Nat.le_trans (Nat.add_le_add_left hle _) hstop⟩

/-! ## What a resized allocation is like -/

theorem header?_wiped : (arena.wiped handle).header? handle = none := by
  have hdecoded : (arena.wiped handle).decoded? handle = none := by
    rw [decoded?, wiped, getElem?_pages_updatePage, if_pos rfl]
    cases arena.pages[handle.page]? with
    | none => rfl
    | some page => exact Header.read?_clear
  rw [Option.eq_none_iff_forall_ne_some]
  intro header hheader
  rw [(header?_eq_some_iff.mp hheader).1] at hdecoded
  contradiction

/-- The topmost allocation was resized, and has the handle `moved` by now. -/
structure Carried (arena : Arena) (handle : Handle) (old : Header) (newSize : Nat) (moved : Handle)
    (after : Arena) : Prop where
  page_eq : handle.page = arena.cursor.page
  header_eq : ∃ header, ((Call.header moved).run after).reply = .ok header ∧
    header.size = newSize ∧ header.alignment = old.alignment
  bytes_eq : ∃ before bytes, ((Call.bytes handle).run arena).reply = .ok before ∧
    ((Call.bytes moved).run after).reply = .ok bytes ∧
      before.size = old.size ∧ bytes.size = newSize ∧
        bytes.extract 0 (min old.size newSize) = before.extract 0 (min old.size newSize)
  aligned : moved.offset % old.alignment = 0
  cursor_eq : after.cursor = ⟨moved.page, moved.offset + newSize⟩
  stays_iff : moved = handle ↔
    (arena.pageLength? handle.page).any (handle.offset + newSize ≤ ·) = true
  moved_eq : moved ≠ handle →
    moved = ⟨arena.cursor.page + 1, leastMultiple headerSize old.alignment⟩
  /-- Every call rejects the handle that the allocation had before it moved. -/
  rejected : moved ≠ handle → ∀ {α : Type} (call : Call α), call.handle? = some handle →
    (call.run after).reply = .error (.invalidHandle after.name handle)
  free_eq : ((Call.free moved).run after).reply = .ok ()

theorem Issued.carried
    (hissued : arena.Issued (handle.start old) newSize old.alignment moved header after)
    (htop : arena.Topmost handle old)
    (hload : load ⟨moved.page, moved.offset, min old.size newSize⟩ after =
      load ⟨handle.page, handle.offset, min old.size newSize⟩ arena)
    (hstays : moved = handle ↔
      (arena.pageLength? handle.page).any (handle.offset + newSize ≤ ·) = true)
    (hmoves : moved ≠ handle →
      moved = ⟨arena.cursor.page + 1, leastMultiple headerSize old.alignment⟩ ∧
        after.header? handle = none) :
    Carried arena handle old newSize moved after where
  page_eq := (Handle.stop_eq_iff.mp htop.stop_eq).1
  header_eq := ⟨header, by rw [call_header_run hissued.header?_eq], hissued.size_eq,
    hissued.serves.alignment_eq⟩
  bytes_eq := by
    refine ⟨_, _, by rw [call_bytes_run htop.header?_eq], by rw [call_bytes_run hissued.header?_eq],
      size_load htop.decoded, (size_load hissued.decoded).trans hissued.size_eq, ?_⟩
    rw [extract_load _ _ (Nat.min_le_left _ _), hissued.size_eq,
      extract_load _ _ (Nat.min_le_right _ _), hload]
  aligned := hissued.serves.aligned
  cursor_eq := by rw [hissued.cursor_eq, Handle.stop, hissued.size_eq]
  stays_iff := hstays
  moved_eq hne := (hmoves hne).1
  rejected hne _ _ hhandle := by
    rw [run_of_header?_eq_none hhandle (hmoves hne).2, Outcome.failed]
  free_eq := by
    have hrun : (Call.free moved).run after = _ := free_run moved after
    simp only [hrun, hissued.header?_eq, if_pos hissued.cursor_eq.symm]

theorem Issued.carried_of_stays
    (hissued : arena.Issued (handle.start old) newSize old.alignment handle header after)
    (htop : arena.Topmost handle old)
    (hload : ∀ size, load ⟨handle.page, handle.offset, size⟩ after =
      load ⟨handle.page, handle.offset, size⟩ arena)
    (hfits : (arena.pageLength? handle.page).any (handle.offset + newSize ≤ ·) = true) :
    Carried arena handle old newSize handle after :=
  hissued.carried htop (hload _) (iff_of_true rfl hfits) (absurd rfl)

theorem relocated_carried (hsound : arena.Sound) (htop : arena.Topmost handle old)
    (hserves : old.Serves handle.offset old.size old.alignment) (hpos : 0 < newSize)
    (hrefusal : arena.refusal? newSize old.alignment = none) (hle : old.size ≤ newSize)
    (hfits : ¬ (arena.pageLength? handle.page).any (handle.offset + newSize ≤ ·) = true) :
    Carried arena handle old newSize
      ⟨arena.cursor.page + 1, leastMultiple headerSize old.alignment⟩
      (arena.relocated handle old newSize) := by
  obtain ⟨hpage, _⟩ := Handle.stop_eq_iff.mp htop.stop_eq
  have hword := required_lt_of_refusal? hrefusal
  have hissued := relocated_issued hsound htop.stop_eq hserves hpos hword
  apply hissued.carried htop
  · rw [Nat.min_eq_left hle]
    exact load_relocated hsound htop hserves hpos hword hle
  · refine iff_of_false ?_ hfits
    rintro rfl
    exact Nat.succ_ne_self _ hpage
  · exact fun _ => ⟨rfl, header?_wiped⟩

theorem Addressable.fits_eq (haddressable : arena.Addressable) (handle : Handle) (newSize : Nat) :
    arena.fits handle newSize =
      (arena.pageLength? handle.page).any (handle.offset + newSize ≤ ·) := by
  cases hlength : arena.pageLength? handle.page with
  | none => simp [fits, hlength]
  | some length =>
    have hlt := haddressable.lt hlength
    rw [Bool.eq_iff_iff, fits_iff hlength, Option.any_some, decide_eq_true_iff]
    omega

/-- A `realloc` of an allocation that has a header of its own never traps: a move retries on the
page that it leaves, but the allocation fits no better there, and so it is copied to a later one. -/
theorem realloc_carries (hsound : arena.Sound) (haddressable : arena.Addressable) (handle : Handle)
    (newSize : Nat) (hserves : ∀ old, arena.header? handle = some old →
      old.Serves handle.offset old.size old.alignment) :
    (realloc handle newSize arena).Settles arena fun moved after =>
      ∃ old, arena.header? handle = some old ∧ Carried arena handle old newSize moved after := by
  rw [realloc_run]
  cases hheader : arena.header? handle with
  | none => exact .failed _
  | some old =>
    have hserves := hserves old hheader
    have hdecoded := (header?_eq_some_iff.mp hheader).1
    obtain ⟨length, hlength, hwithin⟩ := decoded?_within hdecoded
    have hfits_eq := haddressable.fits_eq handle newSize
    simp only
    split
    case isTrue => exact .failed _
    case isFalse hstop =>
      have htop : arena.Topmost handle old := ⟨hdecoded, Decidable.not_not.mp hstop⟩
      split
      case isTrue => exact .failed _
      case isFalse hzero =>
        have hpos := Nat.pos_of_ne_zero hzero
        split
        case isTrue hsame =>
          subst hsame
          refine .done _ ⟨old, rfl, (htop.issued hserves).carried_of_stays htop (fun _ => rfl) ?_⟩
          rw [hlength, Option.any_some]
          exact decide_eq_true hwithin.stop_le
        case isFalse =>
          split
          case isTrue hfits =>
            obtain ⟨hword, hend⟩ := (fits_iff hlength).mp hfits
            have hissued := resized_issued hdecoded hserves hlength hpos hword hend
            exact .done _ ⟨old, rfl,
              hissued.carried_of_stays htop (load_resized hserves) (hfits_eq ▸ hfits)⟩
          case isFalse hfits =>
            have hfits := Bool.not_eq_true _ ▸ hfits
            rw [relocate_run hsound hdecoded hserves htop.stop_eq hpos hfits]
            cases hrefusal : arena.refusal? newSize old.alignment with
            | some fault => exact .failed _
            | none =>
              have hle := size_le_of_not_fits hdecoded hfits
              rw [hfits_eq] at hfits
              exact .done _ ⟨old, rfl, relocated_carried hsound htop hserves hpos hrefusal hle
                (ne_true_of_eq_false hfits)⟩

/-! ## Registers -/

namespace Register

variable {σ : Type} {supply : Supply} {inlinePage : Nat} {settings : ArenaSettings} {state : σ}
  {start : Arena} {register : Register} {holding : Holding}

theorem Reachable.session (hreachable : Reachable start register)
    (hstart : Orderly settings ⟨⟨start, []⟩, []⟩) : Session.Reachable start register.session := by
  induction hreachable with
  | start => exact .start
  | step hreachable step hallows ih =>
    rw [session_next]
    exact ih.step step ((hreachable.orderly hstart).permits hallows)

/-- In every well-behaved run, with scopes and resets and whatever is written to the allocations: a
`realloc` of a live allocation does not trap, and if it succeeds, the allocation is what was asked
for, with the bytes that it had. The length of the first page is a machine word. -/
theorem realloc_carried_of_reachable
    (hcreated : (create supply inlinePage settings state).reply = .ok start)
    (hinline : inlinePage < wordSize) (hreachable : Reachable start register)
    (hmem : holding ∈ register.live) (newSize : Nat) :
    let arena := register.session.arena
    let outcome := register.session.perform (.realloc holding.handle newSize)
    (register.session.perform (.header holding.handle)).reply = .ok holding.header ∧
      outcome.reply ≠ .trap ∧ ∀ moved, outcome.reply = .ok moved →
        Carried arena holding.handle holding.header newSize moved outcome.state := by
  intro arena outcome
  obtain ⟨_, rfl⟩ := reply_create_eq_ok_iff.mp hcreated
  have hfresh := orderly_fresh supply inlinePage settings
  have horderly := hreachable.orderly hfresh
  have haddressable : arena.Addressable := (hreachable.session hfresh).addressable hfresh.moored
    (Session.addressable_fresh supply hinline settings)
  have hheader := horderly.header?_eq hmem
  have houtcome : outcome = realloc holding.handle newSize arena := Session.perform_eq _ _
  have hsettles := realloc_carries horderly.moored.valid.covers haddressable holding.handle newSize
    fun old hold => horderly.serves (List.mem_map_of_mem hmem) hold
  rw [← houtcome] at hsettles
  refine ⟨by rw [Session.perform_eq, call_header_run hheader], hsettles.reply_ne_trap, ?_⟩
  intro moved hreply
  rw [Outcome.eq_of_reply hreply] at hsettles
  obtain ⟨old, hold, hcarried⟩ := hsettles.effect_of_ok
  obtain rfl := Option.some.inj (hheader.symm.trans hold)
  exact hcarried

/-- An allocation from before a scope moves to a page that is added for it. -/
theorem realloc_carried_of_moved :
    let start := fresh Supply.ample 64 ⟨"scratch", 64, none, true⟩
    let allocated := next ⟨⟨start, []⟩, []⟩ (.call (.alloc 16))
    let register := (allocated.next (.call (.overwrite ⟨0, 32⟩ 4 ⟨#[7]⟩))).next .enter
    let outcome := register.session.perform (.realloc ⟨0, 32⟩ 40)
    outcome.reply = .ok ⟨1, 32⟩ ∧
      Carried register.session.arena ⟨0, 32⟩ ⟨0, 16, 16, 32⟩ 40 ⟨1, 32⟩ outcome.state := by
  intro start allocated register outcome
  have hcreated : (create Supply.ample 64 ⟨"scratch", 64, none, true⟩ ()).reply = .ok start :=
    reply_create_eq_ok_iff.mpr ⟨by decide, rfl⟩
  have hreachable : Reachable start register :=
    ((Reachable.start.step (.call (.alloc 16)) ⟨by decide, nofun, nofun⟩).step
      (.call (.overwrite ⟨0, 32⟩ 4 ⟨#[7]⟩)) ⟨nofun, nofun, by rintro _ ⟨⟩; decide +kernel⟩).step
      .enter trivial
  have hmem : ⟨⟨0, 32⟩, ⟨0, 16, 16, 32⟩⟩ ∈ register.live := by decide +kernel
  have hreply : outcome.reply = .ok ⟨1, 32⟩ := by decide +kernel
  obtain ⟨_, _, hcarried⟩ :=
    realloc_carried_of_reachable hcreated (by decide) hreachable hmem 40
  exact ⟨hreply, hcarried _ hreply⟩

end Register

end Arena

end HandleAlloc
