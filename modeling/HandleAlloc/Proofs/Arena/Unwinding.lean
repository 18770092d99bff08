import HandleAlloc.Proofs.Arena.Session
/-!
# Freeing the newest allocations first

The allocations made since some state of an arena, whatever was done before it, form a stack upon
the cursor of that state (`Arena.Pile`), also when they were resized and written to. Freed the newest
first, those on the current page go one after the other, each of which sets the cursor back to where
it started. If no page was begun since, that ends where the pile began. Otherwise it ends at the start
of the page: no allocation of an arena ends there, so that nothing more can be freed.
-/

namespace HandleAlloc

namespace Arena

open HandleAlloc.Action

variable {origin arena after : Arena} {holdings rest : List Holding} {holding : Holding}
  {floor : Cursor} {handle moved : Handle} {header : Header} {size alignment newSize : Nat}

/-! ## Piles of allocations -/

/-- The allocations that were made since an arena was as it was at its `origin`, the newest first. -/
structure Pile (origin : Arena) (holdings : List Holding) (arena : Arena) : Prop where
  sound : arena.Sound
  stack : Stack origin.cursor holdings arena.cursor
  decoded : ∀ holding ∈ holdings, arena.decoded? holding.handle = some holding.header
  kept : Kept origin.cursor origin arena

namespace Pile

theorem refl (hsound : origin.Sound) : Pile origin [] origin :=
  ⟨hsound, .empty, nofun, .refl _ _⟩

theorem header?_eq (hpile : Pile origin holdings arena) (hmem : holding ∈ holdings) :
    arena.header? holding.handle = some holding.header :=
  header?_eq_some_iff.mpr ⟨hpile.decoded holding hmem, hpile.stack.stop_le hmem⟩

theorem header?_of_older (hpile : Pile origin holdings arena)
    (hheader : origin.header? handle = some header) : arena.header? handle = some header := by
  obtain ⟨hdecoded, hstop⟩ := header?_eq_some_iff.mp hheader
  have hposition := le_trans (handle.position_le_stop header) hstop
  exact header?_eq_some_iff.mpr
    ⟨(hpile.kept.decoded?_eq hposition).trans hdecoded, le_trans hstop hpile.stack.base_le⟩

theorem serves (hpile : Pile origin holdings arena) (hmem : handle ∈ holdings.map Holding.handle)
    (hheader : arena.header? handle = some header) :
    header.Serves handle.offset header.size header.alignment := by
  obtain ⟨holding, hlisted, rfl⟩ := List.mem_map.mp hmem
  obtain rfl := Option.some.inj (hheader.symm.trans (hpile.header?_eq hlisted))
  exact hpile.stack.proper hlisted

theorem decoded_below (hpile : Pile origin holdings arena) (hrest : Stack origin.cursor rest floor)
    (hsubset : rest ⊆ holdings) (hkept : Kept floor arena after) (hmem : holding ∈ rest) :
    after.decoded? holding.handle = some holding.header := by
  have hposition := (hrest.proper hmem).position_lt_stop
  rw [hkept.decoded?_eq (le_trans (le_of_lt hposition) (hrest.stop_le hmem))]
  exact hpile.decoded holding (hsubset hmem)

theorem issued (hpile : Pile origin holdings arena) (hrest : Stack origin.cursor rest floor)
    (hsubset : rest ⊆ holdings)
    (hissued : arena.Issued floor size alignment handle header after) :
    Pile origin (⟨handle, header⟩ :: rest) after where
  sound := hissued.sound
  stack := hrest.append (Ledger.stack_of_issued hissued)
  decoded := List.forall_mem_cons.mpr
    ⟨hissued.decoded, fun _ hmem => hpile.decoded_below hrest hsubset hissued.kept hmem⟩
  kept := hpile.kept.trans (hissued.kept.mono hrest.base_le)

theorem freed (hpile : Pile origin (holding :: rest) arena)
    (hrest : Stack origin.cursor rest holding.start) :
    Pile origin rest (arena.freed holding.handle holding.header) where
  sound := freed_sound (hpile.decoded holding List.mem_cons_self)
  stack := hrest
  decoded := fun _ hmem => hpile.decoded_below hrest (List.subset_cons_self _ _)
    (freed_kept (hpile.stack.proper List.mem_cons_self)) hmem
  kept := hpile.kept.trans
    ((freed_kept (hpile.stack.proper List.mem_cons_self)).mono hrest.base_le)

theorem store (hpile : Pile origin holdings arena) (hmem : holding ∈ holdings) (position : Nat)
    (data : ByteArray) :
    Pile origin holdings (Arena.store
      ⟨holding.handle.page, holding.handle.offset, holding.header.size⟩ position data arena) where
  sound := by
    obtain ⟨length, hlength, htop⟩ := hpile.sound
    rw [Sound, cursor_store]
    exact ⟨length, (pageLength?_store _).trans hlength, htop⟩
  stack := by
    rw [cursor_store]
    exact hpile.stack
  decoded := by
    intro other hother
    rw [decoded?_store fun hpage _ hi => (hpile.stack.proper hother).notMem_usable
      (hpile.stack.proper hmem) (hpile.stack.apart hother hmem) hpage hi]
    exact hpile.decoded other hother
  kept := by
    have hstart := hpile.stack.base_le_start hmem
    have hposition := (hpile.stack.proper hmem).start_lt_position
    exact hpile.kept.trans (store_kept (le_trans hstart (le_of_lt hposition)))

theorem supplied (hpile : Pile origin holdings arena) (supply : Supply) :
    Pile origin holdings { arena with supply } :=
  ⟨hpile.sound, hpile.stack, hpile.decoded, hpile.kept.withSupply supply⟩

end Pile

/-! ## Freeing -/

/-- No allocation ends at the start of a page. -/
theorem free_run_of_top_eq_zero (htop : arena.cursor.top = 0)
    (hheader : arena.header? handle = some header) :
    (Call.free handle).run arena = .failed (.notTopOfStack arena.name handle) arena := by
  have hstop : handle.stop header ≠ arena.cursor := by
    intro hstop
    obtain ⟨_, _, hwithin⟩ := decoded?_within (header?_eq_some_iff.mp hheader).1
    have hend : handle.offset + header.size = arena.cursor.top := congrArg Cursor.top hstop
    have hstart := hwithin.start_lt
    omega
  refine (free_run handle arena).trans ?_
  rw [hheader]
  exact if_neg hstop

theorem free_state_of_top_eq_zero (htop : arena.cursor.top = 0) (handle : Handle) :
    ((Call.free handle).run arena).state = arena := by
  cases hheader : arena.header? handle with
  | none => rw [run_of_header?_eq_none rfl hheader, Outcome.failed]
  | some header => rw [free_run_of_top_eq_zero htop hheader, Outcome.failed]

namespace Session

variable {session : Session} {start : Session} {handles : List Handle}

theorem arena_next_call {α : Type} (session : Session) (call : Call α) :
    (session.next (.call call)).arena = (call.run session.arena).state := by
  rw [next, perform_eq]

def freeAll (session : Session) (handles : List Handle) : Session :=
  handles.foldl (fun session handle => session.next (.call (.free handle))) session

@[simp] theorem freeAll_nil (session : Session) : session.freeAll [] = session := rfl

@[simp] theorem freeAll_cons (session : Session) (handle : Handle) (handles : List Handle) :
    session.freeAll (handle :: handles) =
      (session.next (.call (.free handle))).freeAll handles := rfl

theorem freeAll_of_top_eq_zero (htop : session.arena.cursor.top = 0) (handles : List Handle) :
    session.freeAll handles = session := by
  induction handles with
  | nil => rfl
  | cons handle handles ih =>
    have hnext : session.next (.call (.free handle)) = session := by
      rw [next, perform_eq, free_state_of_top_eq_zero htop]
    rw [freeAll_cons, hnext, ih]

/-- The handles of what was allocated since a session was at its `start`, the newest first, if that
was only resized, moved and written to. -/
inductive Piled (start : Session) : List Handle → Session → Prop where
  | start : Piled start [] start
  | issued {α : Type} {handles : List Handle} {session : Session} {call : Call α}
    {size alignment : Nat} {value : α} {handle : Handle} (hpiled : Piled start handles session)
    (hrequest : call.request? = some (size, alignment)) (hword : alignment < wordSize)
    (hreply : (session.perform call).reply = .ok value)
    (hissued : call.issued? value = some handle) :
    Piled start (handle :: handles) (session.next (.call call))
  | resized {handles : List Handle} {session : Session} {handle moved : Handle} {newSize : Nat}
    (hpiled : Piled start (handle :: handles) session)
    (hreply : (session.perform (.realloc handle newSize)).reply = .ok moved) :
    Piled start (moved :: handles) (session.next (.call (.realloc handle newSize)))
  | written {handles : List Handle} {session : Session} {handle : Handle}
    (hpiled : Piled start handles session) (hmem : handle ∈ handles) (position : Nat)
    (data : ByteArray) :
    Piled start handles (session.next (.call (.overwrite handle position data)))
  | supplied {handles : List Handle} {session : Session} (hpiled : Piled start handles session)
    (supply : Supply) : Piled start handles (session.next (.supply supply))

/-- What freeing the allocations made since `start` does, the newest first. -/
structure Unwinds (start session : Session) (handles : List Handle) : Prop where
  page_le : start.arena.cursor.page ≤ session.arena.cursor.page
  /-- On the current page each one is freed in turn, and the cursor goes back to its start. -/
  freed : ∀ newer handle older, handles = newer ++ handle :: older →
    handle.page = session.arena.cursor.page →
      let before := session.freeAll newer
      ∃ header, (before.perform (.header handle)).reply = .ok header ∧
        (before.perform (.free handle)).reply = .ok () ∧
        (before.next (.call (.free handle))).arena.cursor = handle.start header
  /-- On an earlier page none is, for the cursor stays at the start of the current one. -/
  refused : ∀ newer handle older, handles = newer ++ handle :: older →
    handle.page ≠ session.arena.cursor.page →
      let before := session.freeAll newer
      before.arena.cursor = ⟨session.arena.cursor.page, 0⟩ ∧
        before.perform (.free handle) =
          .failed (.notTopOfStack before.arena.name handle) before.arena
  /-- If no page was begun, all are on the current one, and the cursor is where it was. -/
  restored : session.arena.cursor.page = start.arena.cursor.page →
    (∀ handle ∈ handles, handle.page = session.arena.cursor.page) ∧
      (session.freeAll handles).arena.cursor = start.arena.cursor
  /-- Otherwise it is at the start of the page, and what was live before cannot be freed either. -/
  turned : start.arena.cursor.page < session.arena.cursor.page →
    let final := session.freeAll handles
    final.arena.cursor = ⟨session.arena.cursor.page, 0⟩ ∧
      ∀ handle header, (start.perform (.header handle)).reply = .ok header →
        final.perform (.free handle) = .failed (.notTopOfStack final.arena.name handle) final.arena

section Unwinding

/-- A pile upon which a page was begun where nothing stands any more. -/
theorem unwinds_of_turn {top : Cursor} (hpile : Pile start.arena holdings session.arena)
    (hbelow : Stack start.arena.cursor holdings top)
    (hcursor : session.arena.cursor = ⟨top.page + 1, 0⟩) :
    start.Unwinds session (holdings.map Holding.handle) := by
  have htop : session.arena.cursor.top = 0 := congrArg Cursor.top hcursor
  have hpage : session.arena.cursor.page = top.page + 1 := congrArg Cursor.page hcursor
  have hbase : start.arena.cursor.page ≤ top.page := Cursor.page_le hbelow.base_le
  have hearlier (handle : Handle) (hmem : handle ∈ holdings.map Holding.handle) :
      handle.page ≤ top.page := by
    obtain ⟨holding, hlisted, rfl⟩ := List.mem_map.mp hmem
    exact Cursor.page_le (hbelow.stop_le hlisted)
  constructor
  case page_le => omega
  case freed =>
    intro newer handle older hhandles hhere
    have hle := hearlier handle (by simp [hhandles])
    omega
  case refused =>
    intro newer handle older hhandles _ before
    have hbefore : before = session := freeAll_of_top_eq_zero htop newer
    obtain ⟨holding, hmem, rfl⟩ : ∃ holding ∈ holdings, holding.handle = handle := by
      rw [← List.mem_map]
      simp [hhandles]
    rw [hbefore, perform_eq, free_run_of_top_eq_zero htop (hpile.header?_eq hmem), hpage]
    exact ⟨hcursor, rfl⟩
  case restored =>
    intro hsame
    omega
  case turned =>
    intro _ final
    have hfinal : final = session := freeAll_of_top_eq_zero htop _
    rw [hfinal, hpage]
    refine ⟨hcursor, fun handle header hheader => ?_⟩
    rw [perform_eq, reply_header_eq_ok_iff] at hheader
    rw [perform_eq, free_run_of_top_eq_zero htop (hpile.header?_of_older hheader)]

theorem unwinds_nil (hcursor : session.arena.cursor = start.arena.cursor) :
    start.Unwinds session [] where
  page_le := by rw [hcursor]
  freed _ _ _ hhandles := absurd hhandles (by simp)
  refused _ _ _ hhandles := absurd hhandles (by simp)
  restored _ := ⟨nofun, hcursor⟩
  turned hlt := absurd hlt (by simp [hcursor])

theorem Unwinds.cons {after : Session} (hunwinds : start.Unwinds after handles)
    (hpage : handle.page = session.arena.cursor.page)
    (hheader : (session.perform (.header handle)).reply = .ok header)
    (hreply : (session.perform (.free handle)).reply = .ok ())
    (hnext : session.next (.call (.free handle)) = after)
    (hcursor : after.arena.cursor = handle.start header) :
    start.Unwinds session (handle :: handles) := by
  have hsame : after.arena.cursor.page = session.arena.cursor.page := by
    rw [hcursor]
    exact hpage
  subst hnext
  constructor
  case page_le => exact hsame ▸ hunwinds.page_le
  case freed =>
    intro newer other older hhandles hhere
    cases newer with
    | nil =>
      obtain ⟨rfl, _⟩ := List.cons.inj hhandles
      exact ⟨header, hheader, hreply, hcursor⟩
    | cons first newer =>
      obtain ⟨rfl, hrest⟩ := List.cons.inj hhandles
      exact hunwinds.freed newer other older hrest (hhere.trans hsame.symm)
  case refused =>
    intro newer other older hhandles hearlier
    cases newer with
    | nil =>
      obtain ⟨rfl, _⟩ := List.cons.inj hhandles
      exact absurd hpage hearlier
    | cons first newer =>
      obtain ⟨rfl, hrest⟩ := List.cons.inj hhandles
      rw [← hsame] at hearlier ⊢
      exact hunwinds.refused newer other older hrest hearlier
  case restored =>
    intro hbase
    rw [← hsame] at hbase ⊢
    obtain ⟨hpages, hfinal⟩ := hunwinds.restored hbase
    exact ⟨List.forall_mem_cons.mpr ⟨hpage.trans hsame.symm, hpages⟩, hfinal⟩
  case turned =>
    intro hlt
    rw [← hsame] at hlt ⊢
    exact hunwinds.turned hlt

/-- The freeing follows the stack, from the newest allocation to the page that was begun last. -/
theorem unwinds_of_pile (hpile : Pile start.arena holdings session.arena) :
    start.Unwinds session (holdings.map Holding.handle) := by
  induction holdings generalizing session with
  | nil =>
    obtain ⟨_, hcursor⟩ | ⟨_, _, hlive, _⟩ | ⟨top, hbelow, hcursor⟩ := hpile.stack.top_cases
    · exact unwinds_nil hcursor
    · contradiction
    · exact unwinds_of_turn hpile hbelow hcursor
  | cons holding rest ih =>
    obtain ⟨hlive, _⟩ | ⟨_, _, hlive, hbelow, hcursor⟩ | ⟨top, hbelow, hcursor⟩ :=
      hpile.stack.top_cases
    · contradiction
    -- The newest allocation ends at the cursor: it is freed, and the rest is a pile again.
    · obtain ⟨rfl, rfl⟩ := List.cons.inj hlive
      have hmem : holding ∈ holding :: rest := List.mem_cons_self
      have htop : session.arena.Topmost holding.handle holding.header :=
        ⟨hpile.decoded holding hmem, hcursor.symm⟩
      have hfree := free_run_of_topmost htop
      have hnext : (session.next (.call (.free holding.handle))).arena =
          session.arena.freed holding.handle holding.header := by
        rw [arena_next_call, hfree]
      have hheader : (session.perform (.header holding.handle)).reply = .ok holding.header := by
        rw [perform_eq, reply_header_eq_ok_iff]
        exact htop.header?_eq
      have hreply : (session.perform (.free holding.handle)).reply = .ok () := by
        rw [perform_eq, hfree]
      have hunwinds := ih (hnext ▸ hpile.freed hbelow)
      exact hunwinds.cons (congrArg Cursor.page hcursor).symm hheader hreply rfl (by rw [hnext]; rfl)
    · exact unwinds_of_turn hpile hbelow hcursor

theorem Piled.pile (hpiled : start.Piled handles session) (hsound : start.arena.Sound) :
    ∃ holdings, handles = holdings.map Holding.handle ∧ Pile start.arena holdings session.arena ∧
      ∀ newest ∈ holdings.head?, newest.stop = session.arena.cursor := by
  induction hpiled with
  | start => exact ⟨[], rfl, .refl hsound, nofun⟩
  | @issued α handles session call size alignment value handle _ hrequest hword hreply hvalue ih =>
    obtain ⟨holdings, rfl, hpile, _⟩ := ih
    rw [perform_eq] at hreply
    rw [arena_next_call]
    have hsettles := call_settles hpile.sound call (by simpa [hrequest] using hword)
      (by simp [Call.taken?_eq_none hrequest])
    generalize call.run session.arena = outcome at *
    obtain ⟨header, hissued⟩ := (hsettles.effect_of_reply hreply).issued_of_request hrequest hvalue
    refine ⟨⟨handle, header⟩ :: holdings, rfl,
      hpile.issued hpile.stack (List.Subset.refl _) hissued, ?_⟩
    rintro _ ⟨⟩
    exact hissued.cursor_eq.symm
  | @resized handles session handle moved newSize _ hreply ih =>
    obtain ⟨holdings, hholdings, hpile, _⟩ := ih
    obtain ⟨holding, rest, rfl, rfl, rfl⟩ := List.map_eq_cons_iff.mp hholdings.symm
    have hmem : holding ∈ holding :: rest := List.mem_cons_self
    rw [perform_eq] at hreply
    rw [arena_next_call]
    have hsettles := realloc_settles hpile.sound holding.handle newSize fun _ =>
      hpile.serves (List.mem_map_of_mem hmem)
    obtain ⟨old, header, htop, hissued⟩ := hsettles.effect_of_reply hreply
    obtain rfl := Option.some.inj (htop.decoded.symm.trans (hpile.decoded holding hmem))
    obtain ⟨below, hlive, hbelow⟩ := hpile.stack.pop hmem htop.stop_eq
    obtain ⟨_, rfl⟩ := List.cons.inj hlive
    refine ⟨⟨moved, header⟩ :: rest, rfl,
      hpile.issued hbelow (List.subset_cons_self _ _) hissued, ?_⟩
    rintro _ ⟨⟩
    exact hissued.cursor_eq.symm
  | @written handles session handle _ hmem position data ih =>
    obtain ⟨holdings, rfl, hpile, hnewest⟩ := ih
    obtain ⟨holding, hlisted, rfl⟩ := List.mem_map.mp hmem
    rw [arena_next_call]
    have hsettles := overwrite_settles holding.handle position data session.arena
    rw [Call.run]
    generalize Allocator.overwrite holding.handle position data session.arena = outcome at hsettles ⊢
    cases hsettles with
    | failed fault => exact ⟨holdings, rfl, hpile, hnewest⟩
    | done events heffect =>
      obtain ⟨header, hdecoded, rfl⟩ := heffect
      obtain rfl := Option.some.inj (hdecoded.symm.trans (hpile.decoded holding hlisted))
      refine ⟨holdings, rfl, hpile.store hlisted position data, ?_⟩
      rw [cursor_store]
      exact hnewest
  | supplied _ supply ih =>
    obtain ⟨holdings, rfl, hpile, hnewest⟩ := ih
    exact ⟨holdings, rfl, hpile.supplied supply, hnewest⟩

end Unwinding

variable {σ : Type} {supply : Supply} {inlinePage : Nat} {settings : ArenaSettings} {state : σ}
  {origin : Arena}

/-- Whatever was done with an arena: what is allocated from then on is freed, the newest first, as far
as the page that was begun last, or to where the cursor was. -/
theorem unwinds_of_reachable
    (hcreated : (create supply inlinePage settings state).reply = .ok origin)
    (hreachable : Reachable origin start) (hpiled : start.Piled handles session) :
    start.Unwinds session handles ∧
      ∀ newest ∈ handles.head?, newest.page = session.arena.cursor.page := by
  obtain ⟨_, rfl⟩ := reply_create_eq_ok_iff.mp hcreated
  have hsound : start.arena.Sound :=
    (hreachable.moored (moored_fresh supply inlinePage settings)).valid.covers
  obtain ⟨holdings, rfl, hpile, hnewest⟩ := hpiled.pile hsound
  refine ⟨unwinds_of_pile hpile, fun newest hhead => ?_⟩
  rw [List.head?_map, Option.mem_map] at hhead
  obtain ⟨holding, hhead, rfl⟩ := hhead
  exact congrArg Cursor.page (hnewest holding hhead)

/-- Three allocations upon an older one, of which the second begins a page, grows where it stands and is
written to. -/
theorem unwinds_of_turned_page :
    let origin := fresh Supply.ample 128 ⟨"scratch", 256, none, true⟩
    let start := next ⟨origin, []⟩ (.call (.alloc 16))
    let first := start.next (.call (.alignedAlloc 16 16))
    let second := first.next (.call (.alignedAlloc 40 64))
    let grown := second.next (.call (.realloc ⟨1, 64⟩ 50))
    let written := grown.next (.call (.overwrite ⟨1, 64⟩ 0 ⟨#[1, 2, 3]⟩))
    let session := written.next (.call (.alignedAlloc 1 1))
    let handles : List Handle := [⟨1, 146⟩, ⟨1, 64⟩, ⟨0, 80⟩]
    start.arena.cursor = ⟨0, 48⟩ ∧ session.arena.cursor = ⟨1, 147⟩ ∧
      (session.freeAll [⟨1, 146⟩]).arena.cursor = ⟨1, 114⟩ ∧
      (session.freeAll handles).arena.cursor = ⟨1, 0⟩ ∧
      start.Unwinds session handles ∧
      ∀ newest ∈ handles.head?, newest.page = session.arena.cursor.page := by
  intro origin start first second grown written session handles
  have hcreated : (create Supply.ample 128 ⟨"scratch", 256, none, true⟩ ()).reply = .ok origin :=
    reply_create_eq_ok_iff.mpr ⟨by decide, rfl⟩
  have hreachable : Reachable origin start :=
    Reachable.start.step (.call (.alloc 16)) (by decide +kernel : (perform ⟨origin, []⟩ _).reply ≠ _)
  have hfirst : (start.perform (.alignedAlloc 16 16)).reply = .ok ⟨0, 80⟩ := by decide +kernel
  have hsecond : (first.perform (.alignedAlloc 40 64)).reply = .ok ⟨1, 64⟩ := by decide +kernel
  have hgrown : (second.perform (.realloc ⟨1, 64⟩ 50)).reply = .ok ⟨1, 64⟩ := by decide +kernel
  have hlast : (written.perform (.alignedAlloc 1 1)).reply = .ok ⟨1, 146⟩ := by decide +kernel
  have hpair : start.Piled [⟨1, 64⟩, ⟨0, 80⟩] second :=
    (Piled.start.issued rfl (by decide) hfirst rfl).issued rfl (by decide) hsecond rfl
  have hpiled : start.Piled handles session :=
    ((hpair.resized hgrown).written (by decide) 0 ⟨#[1, 2, 3]⟩).issued rfl (by decide) hlast rfl
  exact ⟨by decide +kernel, by decide +kernel, by decide +kernel, by decide +kernel,
    unwinds_of_reachable hcreated hreachable hpiled⟩

end Session

end Arena

end HandleAlloc
