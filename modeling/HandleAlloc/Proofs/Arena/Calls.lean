import HandleAlloc.Proofs.Arena.Execution
import HandleAlloc.Proofs.Call
/-!
# What the calls on an arena do

A call with a handle that reads no acceptable header fails (`run_of_header?_eq_none`). Any other
call on a sound arena fails and changes nothing, or has one of five effects (`call_settles`): it
issues an allocation at the cursor, resizes or frees the one that ends there, writes to the usable
bytes of one, or only looks.
-/

namespace HandleAlloc

namespace Arena

open HandleAlloc.Action

variable {arena after : Arena} {base : Cursor} {handle : Handle} {header old : Header}
  {size alignment newSize : Nat}

/-- The topmost allocation: it ends at the cursor. -/
structure Topmost (arena : Arena) (handle : Handle) (old : Header) : Prop where
  decoded : arena.decoded? handle = some old
  stop_eq : handle.stop old = arena.cursor

theorem Topmost.start_le_stop (htop : arena.Topmost handle old) :
    handle.start old ≤ handle.stop old := by
  obtain ⟨_, _, hwithin⟩ := decoded?_within htop.decoded
  exact Or.inr ⟨rfl, Nat.le_of_lt hwithin.start_lt⟩

theorem Topmost.header?_eq (htop : arena.Topmost handle old) : arena.header? handle = some old :=
  header?_eq_some_iff.mpr ⟨htop.decoded, le_of_eq htop.stop_eq⟩

/-- What a request that succeeds does: it is placed on the current page, or else on the next one. -/
inductive Allocates (arena : Arena) (size alignment : Nat) : Handle → Arena → Prop where
  | bumped {offset : Nat} (hpower : alignment.isPowerOfTwo) (hpos : 0 < size)
    (hfit : arena.rest.place? size alignment = some offset) :
    Allocates arena size alignment ⟨arena.cursor.page, offset⟩ (arena.bumped size alignment offset)
  | spilled (hpower : alignment.isPowerOfTwo) (hpos : 0 < size)
    (hrefusal : arena.refusal? size alignment = none) :
    Allocates arena size alignment ⟨arena.cursor.page + 1, leastMultiple headerSize alignment⟩
      (arena.spilled size alignment)

inductive Reallocates (arena : Arena) (handle : Handle) (newSize : Nat) : Handle → Arena → Prop where
  | same {old : Header} (htop : arena.Topmost handle old) (hsize : newSize = old.size) :
    Reallocates arena handle newSize handle arena
  | resized {old : Header} (htop : arena.Topmost handle old) (hpos : 0 < newSize)
    (hfits : arena.fits handle newSize = true) :
    Reallocates arena handle newSize handle (arena.resized handle old newSize)
  | relocated {old : Header} (htop : arena.Topmost handle old) (hpos : 0 < newSize)
    (hrefusal : arena.refusal? newSize old.alignment = none) :
    Reallocates arena handle newSize
      ⟨arena.cursor.page + 1, leastMultiple headerSize old.alignment⟩
      (arena.relocated handle old newSize)

/-- What a call that succeeds does to an arena. -/
inductive Effect (arena : Arena) : {α : Type} → Call α → α → Arena → Prop where
  | issued {α : Type} {call : Call α} {value : α} {size alignment : Nat} {handle : Handle}
    {header : Header} {after : Arena} (hrequest : call.request? = some (size, alignment))
    (hvalue : call.issued? value = some handle)
    (hissued : arena.Issued arena.cursor size alignment handle header after) :
    Effect arena call value after
  | resized {handle moved : Handle} {old header : Header} {newSize : Nat} {after : Arena}
    (htop : arena.Topmost handle old)
    (hissued : arena.Issued (handle.start old) newSize old.alignment moved header after) :
    Effect arena (.realloc handle newSize) moved after
  | freed {handle : Handle} {old : Header} (htop : arena.Topmost handle old) :
    Effect arena (.free handle) () (arena.freed handle old)
  | overwritten {handle : Handle} {header : Header} {position : Nat} {data : ByteArray}
    {fits : Bool} (hdecoded : arena.decoded? handle = some header) :
    Effect arena (.overwrite handle position data) fits
      (store ⟨handle.page, handle.offset, header.size⟩ position data arena)
  | observed {α : Type} {call : Call α} {value : α} (hquery : call.isQuery = true) :
    Effect arena call value arena

/-! ## Issuing allocations -/

theorem Issued.store (hissued : arena.Issued base size alignment handle header after)
    (position : Nat) (data : ByteArray) :
    arena.Issued base size alignment handle header
      (store ⟨handle.page, handle.offset, header.size⟩ position data after) where
  start_eq := hissued.start_eq
  cursor_eq := cursor_store.trans hissued.cursor_eq
  kept := by
    have hstart := hissued.serves.start_le
    refine hissued.kept.trans (store_kept ?_)
    obtain hhere | hnext := hissued.start_eq
    · rw [← hhere]
      exact Or.inr ⟨rfl, show header.start ≤ handle.offset by omega⟩
    · have hpage : handle.page = base.page + 1 := congrArg Cursor.page hnext
      exact Or.inl (show base.page < handle.page by omega)
  decoded := by
    rw [decoded?_store]
    · exact hissued.decoded
    · intro _ i hheader hi
      rw [mem_interval] at hheader hi
      exact Nat.not_le_of_lt hheader.2 hi.1
  serves := hissued.serves
  size_eq := hissued.size_eq

theorem Issued.header?_eq (hissued : arena.Issued base size alignment handle header after) :
    after.header? handle = some header :=
  header?_eq_some_iff.mpr ⟨hissued.decoded, hissued.cursor_eq ▸ le_refl _⟩

theorem alignedAlloc_cases (hsound : arena.Sound) (hword : alignment < wordSize) (size : Nat) :
    (alignedAlloc size alignment arena).Settles arena (arena.Allocates size alignment) := by
  rw [alignedAlloc_run hsound hword]
  split
  case isTrue => exact .failed _
  case isFalse hpower =>
    have halignment := Decidable.not_not.mp hpower
    split
    case isTrue => exact .failed _
    case isFalse hsize =>
      have hpos := Nat.pos_of_ne_zero hsize
      cases hfit : arena.rest.place? size alignment with
      | some offset => exact .done _ (.bumped halignment hpos hfit)
      | none =>
        cases hrefusal : arena.refusal? size alignment with
        | some fault => exact .failed _
        | none => exact .done _ (.spilled halignment hpos hrefusal)

theorem Allocates.issued (hallocates : arena.Allocates size alignment handle after)
    (hsound : arena.Sound) :
    ∃ header, arena.Issued arena.cursor size alignment handle header after := by
  cases hallocates with
  | bumped hpower hpos hfit => exact ⟨_, bumped_issued hsound hpower hpos hfit⟩
  | spilled hpower hpos hrefusal =>
    exact ⟨_, spilled_issued hsound hpower hpos (required_lt_of_refusal? hrefusal)⟩

theorem alignedAlloc_settles (hsound : arena.Sound) (hword : alignment < wordSize) (size : Nat) :
    (alignedAlloc size alignment arena).Settles arena fun handle after =>
      ∃ header, arena.Issued arena.cursor size alignment handle header after :=
  (alignedAlloc_cases hsound hword size).imp fun _ _ hallocates => hallocates.issued hsound

theorem defaultAlignment_lt : defaultAlignment < wordSize := by decide

theorem allocZero_cases (hsound : arena.Sound) (size : Nat) :
    ((Allocator.allocZero size : Action Arena Handle) arena).Settles arena fun handle after =>
      ∃ issued header data, arena.Allocates size defaultAlignment handle issued ∧
        arena.Issued arena.cursor size defaultAlignment handle header issued ∧
        after = store ⟨handle.page, handle.offset, header.size⟩ 0 data issued := by
  apply (alignedAlloc_cases hsound defaultAlignment_lt size).bind
  intro handle issued hallocates
  obtain ⟨header, hissued⟩ := hallocates.issued hsound
  have hregion : (Allocator.region handle : Action Arena Region) issued = _ :=
    region_run handle issued
  simp only [bind_run, hregion, hissued.header?_eq, modify_run, pure_run]
  exact ⟨_, _, _, rfl, issued, header, _, hallocates, hissued, rfl⟩

theorem allocZero_settles (hsound : arena.Sound) (size : Nat) :
    ((Allocator.allocZero size : Action Arena Handle) arena).Settles arena fun handle after =>
      ∃ header, arena.Issued arena.cursor size defaultAlignment handle header after := by
  apply (allocZero_cases hsound size).imp
  rintro handle _ ⟨issued, header, data, _, hissued, rfl⟩
  exact ⟨header, hissued.store _ _⟩

theorem construct_cases {α : Type} [PlainData α] (hsound : arena.Sound) (value : α) :
    ((Allocator.construct value : Action Arena Handle) arena).Settles arena fun handle after =>
      ∃ issued header data,
        arena.Allocates (max (PlainData.size α) 1) defaultAlignment handle issued ∧
        arena.Issued arena.cursor (max (PlainData.size α) 1) defaultAlignment handle header issued ∧
        after = store ⟨handle.page, handle.offset, header.size⟩ 0 data issued := by
  apply (alignedAlloc_cases hsound defaultAlignment_lt _).bind
  intro handle issued hallocates
  obtain ⟨header, hissued⟩ := hallocates.issued hsound
  have hregion : (Allocator.region handle : Action Arena Region) issued = _ :=
    region_run handle issued
  have hsize : PlainData.size α ≤ header.size :=
    Nat.le_trans (Nat.le_max_left _ 1) hissued.serves.le_size
  simp only [bind_run, hregion, hissued.header?_eq, require_run_of hsize, modify_run, pure_run]
  exact ⟨_, _, _, rfl, issued, header, _, hallocates, hissued, rfl⟩

theorem construct_settles {α : Type} [PlainData α] (hsound : arena.Sound) (value : α) :
    ((Allocator.construct value : Action Arena Handle) arena).Settles arena fun handle after =>
      ∃ header, arena.Issued arena.cursor (max (PlainData.size α) 1) defaultAlignment handle
        header after := by
  apply (construct_cases hsound value).imp
  rintro handle _ ⟨issued, header, data, _, hissued, rfl⟩
  exact ⟨header, hissued.store _ _⟩

/-! ## Resizing and taking back -/

theorem Topmost.issued (htop : arena.Topmost handle old)
    (hserves : old.Serves handle.offset old.size old.alignment) :
    arena.Issued (handle.start old) old.size old.alignment handle old arena where
  start_eq := Or.inl rfl
  cursor_eq := htop.stop_eq.symm
  kept := .refl _ _
  decoded := htop.decoded
  serves := hserves
  size_eq := rfl

/-- What a `realloc` can do, if a move finds no place on the page it leaves. -/
theorem realloc_cases (hsound : arena.Sound) (handle : Handle) (newSize : Nat)
    (hplace : ∀ old, arena.Topmost handle old → 0 < newSize → newSize ≠ old.size →
      arena.fits handle newSize = false →
        (arena.rewound old).rest.place? newSize old.alignment = none) :
    (realloc handle newSize arena).Settles arena (arena.Reallocates handle newSize) := by
  rw [realloc_run]
  cases hheader : arena.header? handle with
  | none => exact .failed _
  | some old =>
    obtain ⟨hdecoded, _⟩ := header?_eq_some_iff.mp hheader
    simp only
    split
    case isTrue => exact .failed _
    case isFalse hstop =>
      have htop : arena.Topmost handle old := ⟨hdecoded, Decidable.not_not.mp hstop⟩
      split
      case isTrue => exact .failed _
      case isFalse hsize =>
        have hpos := Nat.pos_of_ne_zero hsize
        split
        case isTrue hsame => exact .done _ (.same htop hsame)
        case isFalse hne =>
          split
          case isTrue hfits => exact .done _ (.resized htop hpos hfits)
          case isFalse hfits =>
            have hfits := Bool.not_eq_true _ ▸ hfits
            rw [relocate_run_of_place? hsound hdecoded htop.stop_eq hpos hfits
              (hplace old htop hpos hne hfits)]
            cases hrefusal : arena.refusal? newSize old.alignment with
            | some fault => exact .failed _
            | none => exact .done _ (.relocated htop hpos hrefusal)

theorem realloc_cases_of_serves (hsound : arena.Sound) (handle : Handle) (newSize : Nat)
    (hserves : ∀ old, arena.header? handle = some old →
      old.Serves handle.offset old.size old.alignment) :
    (realloc handle newSize arena).Settles arena (arena.Reallocates handle newSize) :=
  realloc_cases hsound handle newSize fun old htop _ _ hfits =>
    place?_rewound htop.decoded (hserves old htop.header?_eq) htop.stop_eq hfits

theorem realloc_settles (hsound : arena.Sound) (handle : Handle) (newSize : Nat)
    (hserves : ∀ old, arena.header? handle = some old →
      old.Serves handle.offset old.size old.alignment) :
    (realloc handle newSize arena).Settles arena fun moved after =>
      ∃ old header, arena.Topmost handle old ∧
        arena.Issued (handle.start old) newSize old.alignment moved header after := by
  apply (realloc_cases_of_serves hsound handle newSize hserves).imp
  intro moved after hreallocates
  cases hreallocates with
  | @same old htop hsize =>
    exact ⟨old, old, htop, hsize ▸ htop.issued (hserves old htop.header?_eq)⟩
  | @resized old htop hpos hfits =>
    obtain ⟨length, hlength, _⟩ := decoded?_within htop.decoded
    obtain ⟨hword, hend⟩ := (fits_iff hlength).mp hfits
    exact ⟨old, _, htop,
      resized_issued htop.decoded (hserves old htop.header?_eq) hlength hpos hword hend⟩
  | @relocated old htop hpos hrefusal =>
    exact ⟨old, _, htop, relocated_issued hsound htop.stop_eq (hserves old htop.header?_eq) hpos
      (required_lt_of_refusal? hrefusal)⟩

theorem free_settles (handle : Handle) (arena : Arena) :
    (free handle arena).Settles arena fun _ after =>
      ∃ old, arena.Topmost handle old ∧ after = arena.freed handle old := by
  rw [free_run]
  cases hheader : arena.header? handle with
  | none => exact .failed _
  | some old =>
    simp only
    split
    case isTrue htop => exact .done _ ⟨old, ⟨(header?_eq_some_iff.mp hheader).1, htop⟩, rfl⟩
    case isFalse => exact .failed _

theorem free_run_of_topmost (htop : arena.Topmost handle header) :
    (Call.free handle).run arena =
      ⟨.ok (), arena.freed handle header, [.arenaFreed arena.name handle]⟩ := by
  refine (free_run handle arena).trans ?_
  rw [htop.header?_eq]
  exact if_pos htop.stop_eq

/-! ## All calls -/

def region? (arena : Arena) (handle : Handle) : Option Region :=
  (arena.header? handle).map fun header => ⟨handle.page, handle.offset, header.size⟩

theorem region_run_eq (handle : Handle) (arena : Arena) :
    (Allocator.region handle : Action Arena Region) arena =
      (arena.region? handle).elim (.failed (.invalidHandle arena.name handle) arena) fun place =>
        ⟨.ok place, arena, []⟩ := by
  refine (region_run handle arena).trans ?_
  rw [region?]
  cases arena.header? handle <;> rfl

theorem call_header_run (hheader : arena.header? handle = some header) :
    (Call.header handle).run arena = ⟨.ok header, arena, []⟩ := by
  refine (header_run handle arena).trans ?_
  rw [hheader]

theorem reply_header_eq_ok_iff :
    ((Call.header handle).run arena).reply = .ok header ↔ arena.header? handle = some header := by
  have hrun : (Call.header handle).run arena = _ := header_run handle arena
  rw [hrun]
  cases arena.header? handle <;> simp [Outcome.failed]

theorem call_bytes_run (hheader : arena.header? handle = some header) :
    (Call.bytes handle).run arena =
      ⟨.ok (load ⟨handle.page, handle.offset, header.size⟩ arena), arena, []⟩ := by
  rw [Call.run, Allocator.bytes_run_of_region (region_run_eq _ _), region?, hheader]
  rfl

theorem overwrite_settles (handle : Handle) (position : Nat) (data : ByteArray) (arena : Arena) :
    ((Allocator.overwrite handle position data : Action Arena Bool) arena).Settles arena
      fun _ after => ∃ header, arena.decoded? handle = some header ∧
        after = store ⟨handle.page, handle.offset, header.size⟩ position data arena := by
  rw [Allocator.overwrite_run_of_region (region_run_eq handle arena)]
  cases hplace : arena.region? handle with
  | none => exact .failed _
  | some place =>
    obtain ⟨header, hheader, rfl⟩ := Option.map_eq_some_iff.mp hplace
    exact .done _ ⟨header, (header?_eq_some_iff.mp hheader).1, rfl⟩

theorem header_settles (handle : Handle) (arena : Arena) :
    (Arena.header handle arena).Settles arena fun _ after => after = arena := by
  rw [header_run]
  cases arena.header? handle with
  | none => exact .failed _
  | some header => exact .done _ rfl

/-- Every call on a sound arena settles, if the alignment it asks for is a machine word and the
header of what it takes is one that an allocation has. -/
theorem call_settles {α : Type} (hsound : arena.Sound) (call : Call α)
    (hword : ∀ request ∈ call.request?, request.2 < wordSize)
    (hserves : ∀ handle ∈ call.taken?, ∀ old, arena.header? handle = some old →
      old.Serves handle.offset old.size old.alignment) :
    (call.run arena).Settles arena (arena.Effect call) := by
  cases call with
  | alignedAlloc size alignment =>
    exact (alignedAlloc_settles hsound (hword _ rfl) size).imp fun _ _ ⟨_, hissued⟩ =>
      .issued rfl rfl hissued
  | alloc size =>
    exact (alignedAlloc_settles hsound defaultAlignment_lt size).imp fun _ _ ⟨_, hissued⟩ =>
      .issued rfl rfl hissued
  | allocZero size =>
    exact (allocZero_settles hsound size).imp fun _ _ ⟨_, hissued⟩ => .issued rfl rfl hissued
  | construct value =>
    exact (construct_settles hsound value).imp fun _ _ ⟨_, hissued⟩ => .issued rfl rfl hissued
  | realloc handle newSize =>
    exact (realloc_settles hsound handle newSize (hserves handle rfl)).imp
      fun _ _ ⟨_, _, htop, hissued⟩ => .resized htop hissued
  | free handle =>
    refine (free_settles handle arena).imp ?_
    rintro ⟨⟩ after ⟨old, htop, rfl⟩
    exact .freed htop
  | overwrite handle position data =>
    refine (overwrite_settles handle position data arena).imp ?_
    rintro fits after ⟨header, hdecoded, rfl⟩
    exact .overwritten hdecoded
  | header | bytes | read =>
    refine (Call.query_settles rfl (header_settles · arena) (region_run_eq · arena)).imp ?_
    rintro value after rfl
    exact .observed rfl

theorem Effect.issued_of_request {α : Type} {call : Call α} {value : α}
    (heffect : arena.Effect call value after) (hrequest : call.request? = some (size, alignment))
    (hvalue : call.issued? value = some handle) :
    ∃ header, arena.Issued arena.cursor size alignment handle header after := by
  cases heffect with
  | issued hrequest' hvalue' hissued =>
    obtain ⟨rfl, rfl⟩ := Prod.mk.inj (Option.some.inj (hrequest.symm.trans hrequest'))
    obtain rfl := Option.some.inj (hvalue.symm.trans hvalue')
    exact ⟨_, hissued⟩
  | resized | freed | overwritten => contradiction
  | observed hquery => cases call <;> cases hquery <;> cases hrequest

theorem run_of_header?_eq_none {α : Type} {call : Call α} (hhandle : call.handle? = some handle)
    (hnone : arena.header? handle = none) :
    call.run arena = .failed (.invalidHandle arena.name handle) arena := by
  have hregion : arena.region? handle = none := by rw [region?, hnone, Option.map_none]
  cases call <;> cases hhandle
  case realloc newSize => exact (realloc_run handle newSize arena).trans (by rw [hnone])
  case free => exact (free_run handle arena).trans (by rw [hnone])
  case header => exact (header_run handle arena).trans (by rw [hnone])
  case bytes =>
    rw [Call.run, Allocator.bytes_run_of_region (region_run_eq handle arena), hregion,
      Option.elim_none]
  case overwrite position data =>
    rw [Call.run, Allocator.overwrite_run_of_region (region_run_eq handle arena), hregion,
      Option.elim_none]
  case read =>
    rw [Call.run, Allocator.read_run_of_region (region_run_eq handle arena), hregion,
      Option.elim_none]

/-! ## Not the topmost allocation -/

theorem reply_free_eq_notTopOfStack_iff (hheader : arena.header? handle = some old) :
    (free handle arena).reply = .error (.notTopOfStack arena.name handle) ↔
      handle.stop old ≠ arena.cursor := by
  rw [free_run, hheader]
  by_cases htop : handle.stop old = arena.cursor
  · simp [htop]
  · simp [htop, Outcome.failed]

theorem refusal?_ne_notTopOfStack (arena : Arena) (size alignment : Nat) (allocator : String)
    (handle : Handle) : arena.refusal? size alignment ≠ some (.notTopOfStack allocator handle) := by
  simp only [refusal?]
  repeat' split
  all_goals simp

theorem reply_realloc_eq_notTopOfStack_iff (hsound : arena.Sound)
    (hheader : arena.header? handle = some old)
    (hserves : old.Serves handle.offset old.size old.alignment) (newSize : Nat) :
    (realloc handle newSize arena).reply = .error (.notTopOfStack arena.name handle) ↔
      handle.stop old ≠ arena.cursor := by
  rw [realloc_run, hheader]
  by_cases htop : handle.stop old = arena.cursor
  case neg => simp [htop, Outcome.failed]
  simp only [if_neg (not_not_intro htop), iff_false_right (not_not_intro htop)]
  obtain ⟨hdecoded, _⟩ := header?_eq_some_iff.mp hheader
  by_cases hsize : newSize = 0
  case pos => simp [hsize, Outcome.failed]
  by_cases hsame : newSize = old.size
  case pos => simp [hsize, ← hsame]
  rw [if_neg hsize, if_neg hsame]
  cases hfits : arena.fits handle newSize with
  | true => simp
  | false =>
    rw [if_neg Bool.false_ne_true,
      relocate_run hsound hdecoded hserves htop (Nat.pos_of_ne_zero hsize) hfits]
    have hrefusal := refusal?_ne_notTopOfStack arena newSize old.alignment arena.name handle
    cases hcase : arena.refusal? newSize old.alignment with
    | none => simp
    | some fault =>
      rw [hcase] at hrefusal
      simpa [Outcome.failed] using hrefusal

end Arena

end HandleAlloc
