import HandleAlloc.Proofs.Arena.Reclaim
import HandleAlloc.Proofs.Arena.Reuse
/-!
# The same calls again

Calls that all succeeded are made again after the cursor was set back to where it was before the first
of them. The second run goes through the same cursors and hands out the same handles, and finds every
page that the first one added, so that it adds none.

The simulation that shows it is `Follows`: the second run stands at the cursor of the first, holds what
that one holds, upon what it began with, and has the pages that the first run ended with. Payloads are
not part of it: all that a call reads of an allocation is its header.
-/

namespace HandleAlloc

/-- A call that neither asks for an allocation nor takes one: it writes to one, or looks at it. -/
def Call.Idle {α : Type} (call : Call α) : Prop := call.request? = none ∧ call.taken? = none

namespace Arena

section Effect

variable {α : Type} {arena after : Arena} {call : Call α} {value : α}

theorem Effect.idle (heffect : arena.Effect call value after) (hidle : call.Idle) :
    after.cursor = arena.cursor ∧ ∀ i, after.pageLength? i = arena.pageLength? i := by
  obtain ⟨hrequest, htaken⟩ := hidle
  cases heffect with
  | issued hsome => exact nomatch hsome.symm.trans hrequest
  | resized => exact nomatch htaken
  | freed => exact nomatch htaken
  | overwritten => exact ⟨cursor_store, pageLength?_store⟩
  | observed => exact ⟨rfl, fun _ => rfl⟩

end Effect

theorem Stack.eq_nil {base : Cursor} {live : List Holding} (hstack : Stack base live base) :
    live = [] := by
  rw [List.eq_nil_iff_forall_not_mem]
  intro holding hmem
  have hstart := hstack.base_le_start hmem
  have hstop := hstack.stop_le hmem
  exact absurd (le_trans hstop hstart) (not_le_of_gt (hstack.proper hmem).start_lt_stop)

namespace Ledger

section Settle

variable {α : Type} {live older : List Holding} {after final : Arena} {call : Call α} {value : α}

theorem settle_of_idle (hidle : call.Idle) : settle live after call value = live := by
  cases call <;> simp_all [Call.Idle, settle, Call.request?, Call.taken?, Call.issued?]

theorem settle_congr
    (hwritten : ∀ handle ∈ call.issued? value, final.written handle = after.written handle) :
    settle live final call value = settle live after call value := by
  cases call <;> simp_all [settle, Call.issued?]

theorem settle_append (hothers : ∀ holding ∈ older, ∀ handle ∈ call.taken?, holding.handle ≠ handle) :
    settle (live ++ older) after call value = settle live after call value ++ older := by
  have hfilter (handle : Handle) (hhandle : handle ∈ call.taken?) :
      older.filter (·.handle ≠ handle) = older := by
    rw [List.filter_eq_self]
    intro holding hmem
    simpa using hothers holding hmem handle hhandle
  cases call with
  | realloc handle newSize =>
    rw [settle, settle, List.filter_append, hfilter handle rfl, List.cons_append]
  | free handle => rw [settle, settle, List.filter_append, hfilter handle rfl]
  | alignedAlloc | alloc | allocZero | construct | header | bytes | overwrite | read => rfl

end Settle

/-! ## Two runs -/

/-- What a call shows: its reply, down to the handle that it hands out, and where it leaves the
cursor. -/
structure Mark where
  reply : Reply (Option Handle)
  cursor : Cursor
  deriving DecidableEq

def mark {α : Type} (ledger : Ledger) (call : Call α) : Mark where
  reply := match (ledger.perform call).reply with
    | .ok value => .ok (call.issued? value)
    | .error fault => .error fault
    | .trap => .trap
  cursor := (ledger.next (.call call)).arena.cursor

/-- Writes to live allocations, and looks at them; what the system grants may change as well. -/
inductive Idles (ledger : Ledger) : Ledger → Prop where
  | refl : Idles ledger ledger
  | step {middle : Ledger} {α : Type} (hidles : Idles ledger middle) (call : Call α)
    (hidle : call.Idle) (hallows : middle.Allows (.call call)) :
    Idles ledger (middle.next (.call call))
  | supply {middle : Ledger} (hidles : Idles ledger middle) (supply : Supply) :
    Idles ledger (middle.next (.supply supply))

/-- A run of calls that place, move and take back allocations, with writes in between. They are
well-behaved and all succeed; calls and marks are listed with the newest first. -/
inductive Pass (first : Ledger) : List Step → List Mark → Ledger → Prop where
  | start {after : Ledger} (hidles : first.Idles after) : Pass first [] [] after
  | call {calls : List Step} {marks : List Mark} {ledger after : Ledger} {α : Type} {value : α}
    (hpass : Pass first calls marks ledger) (call : Call α) (hmoves : call.moves = true)
    (hallows : ledger.Allows (.call call)) (hreply : (ledger.perform call).reply = .ok value)
    (hidles : (ledger.next (.call call)).Idles after) :
    Pass first (.call call :: calls) (ledger.mark call :: marks) after

/-- A run of calls, whatever they reply, with writes in between. -/
inductive Replay (again : Ledger) : List Step → List Mark → Ledger → Prop where
  | start {after : Ledger} (hidles : again.Idles after) : Replay again [] [] after
  | call {calls : List Step} {marks : List Mark} {ledger after : Ledger} {α : Type}
    (hreplay : Replay again calls marks ledger) (call : Call α)
    (hidles : (ledger.next (.call call)).Idles after) :
    Replay again (.call call :: calls) (ledger.mark call :: marks) after

/-- Where a run of calls that ended in `last` can be repeated from: the scope that it began in was
ended, or the arena reset; and so again after a repetition, whether it was finished or not. -/
inductive Rewound (calls : List Step) (last : Ledger) : Ledger → Prop where
  | ended {step : Step} (hends : step = .leave ∨ step = .reset) (hallows : last.Allows step) :
    Rewound calls last (last.next step)
  | opened {again : Ledger} (hrewound : Rewound calls last again) :
    Rewound calls last (again.next .enter)
  | repeated {again other : Ledger} {done : List Step} {marks : List Mark} {step : Step}
    (hrewound : Rewound calls last again) (hbase : again.arena.cursor = base again.outer)
    (hdone : done <:+ calls) (hreplay : Replay again done marks other)
    (hends : step = .leave ∨ step = .reset) (hallows : other.Allows step) :
    Rewound calls last (other.next step)

section Still

variable {α : Type} {ledger after first last : Ledger} {call : Call α} {calls done : List Step}
  {marks : List Mark} {step : Step}

/-- Nothing changes that the next call depends on. -/
structure Still (ledger after : Ledger) : Prop where
  stacked : after.Stacked
  live_eq : after.live = ledger.live
  outer_eq : after.outer = ledger.outer
  cursor_eq : after.arena.cursor = ledger.arena.cursor
  pageLength?_eq : ∀ i, after.arena.pageLength? i = ledger.arena.pageLength? i

theorem Still.climbs (hstill : ledger.Still after) : ledger.arena.Climbs after.arena :=
  climbs_of_eq hstill.cursor_eq hstill.pageLength?_eq

theorem Stacked.still (hstacked : ledger.Stacked) (hidle : call.Idle)
    (hallows : ledger.Allows (.call call)) : ledger.Still (ledger.next (.call call)) := by
  have hafter := hstacked.next hallows
  have hsettles := hstacked.settles hallows
  generalize hrun : call.run ledger.arena = outcome at hsettles
  cases hsettles with
  | failed fault =>
    rw [next_of_failed hrun] at hafter ⊢
    exact ⟨hafter, rfl, rfl, rfl, fun _ => rfl⟩
  | done events heffect =>
    obtain ⟨hcursor, hlengths⟩ := heffect.idle hidle
    rw [next_of_ok hrun, settle_of_idle hidle] at hafter ⊢
    exact ⟨hafter, rfl, rfl, hcursor, hlengths⟩

theorem Idles.still (hidles : ledger.Idles after) (hstacked : ledger.Stacked) :
    ledger.Still after := by
  induction hidles with
  | refl => exact ⟨hstacked, rfl, rfl, rfl, fun _ => rfl⟩
  | step _ call hidle hallows ih =>
    have hstill := ih.stacked.still hidle hallows
    exact {
      stacked := hstill.stacked
      live_eq := hstill.live_eq.trans ih.live_eq
      outer_eq := hstill.outer_eq.trans ih.outer_eq
      cursor_eq := hstill.cursor_eq.trans ih.cursor_eq
      pageLength?_eq := fun i => (hstill.pageLength?_eq i).trans (ih.pageLength?_eq i) }
  | @supply middle _ supply ih =>
    have hallows : middle.Allows (.supply supply) := trivial
    exact { ih with stacked := ih.stacked.next hallows }

theorem Stacked.climbs (hstacked : ledger.Stacked) (hallows : ledger.Allows (.call call)) :
    ledger.arena.Climbs (ledger.next (.call call)).arena := by
  have hsettles := hstacked.settles hallows
  generalize hrun : call.run ledger.arena = outcome at hsettles
  cases hsettles with
  | failed fault =>
    rw [next_of_failed hrun]
    exact climbs_of_eq rfl fun _ => rfl
  | done events heffect =>
    rw [next_of_ok hrun]
    exact heffect.climbs

theorem Pass.stacked (hpass : Pass first calls marks last) (hfirst : first.Stacked) :
    last.Stacked := by
  induction hpass with
  | start hidles => exact (hidles.still hfirst).stacked
  | call _ _ _ hallows _ hidles ih => exact (hidles.still (ih.next hallows)).stacked

theorem Pass.outer_eq (hpass : Pass first calls marks last) (hfirst : first.Stacked) :
    last.outer = first.outer := by
  induction hpass with
  | start hidles => exact (hidles.still hfirst).outer_eq
  | call hpass _ _ hallows _ hidles ih =>
    exact (hidles.still ((hpass.stacked hfirst).next hallows)).outer_eq.trans ih

theorem Pass.suffix (hpass : Pass first calls marks last) (hfirst : first.Stacked)
    (hdone : done <:+ calls) : ∃ seen ledger,
      seen <:+ marks ∧ Pass first done seen ledger ∧ ledger.arena.Climbs last.arena := by
  induction hpass with
  | start hidles =>
    obtain rfl := List.suffix_nil.mp hdone
    exact ⟨[], _, List.suffix_rfl, .start hidles, climbs_of_eq rfl fun _ => rfl⟩
  | call hpass call hmoves hallows hreply hidles ih =>
    obtain rfl | hdone := List.suffix_cons_iff.mp hdone
    · exact ⟨_, _, List.suffix_rfl, .call hpass call hmoves hallows hreply hidles,
        climbs_of_eq rfl fun _ => rfl⟩
    · obtain ⟨seen, ledger, hseen, hprefix, hclimbs⟩ := ih hdone
      have hstacked := hpass.stacked hfirst
      have hstill := hidles.still (hstacked.next hallows)
      exact ⟨seen, ledger, hseen.trans (List.suffix_cons _ _), hprefix,
        (hclimbs.trans (hstacked.climbs hallows)).trans hstill.climbs⟩

theorem Stacked.rewinds (hstacked : ledger.Stacked) (hends : step = .leave ∨ step = .reset)
    (hallows : ledger.Allows step) : (ledger.next step).Stacked ∧
      (ledger.next step).arena.cursor = base ledger.outer ∧
        ∀ i, (ledger.next step).arena.pageLength? i = ledger.arena.pageLength? i := by
  refine ⟨hstacked.next hallows, ?_⟩
  obtain rfl | rfl := hends
  · obtain ⟨frame, outer, houter⟩ := List.exists_cons_of_ne_nil hallows
    refine ⟨cursor_leave hallows, fun i => ?_⟩
    rw [next_leave houter]
    rfl
  · have hnone : ledger.outer = [] := hallows
    rw [next_reset, hnone]
    exact ⟨rfl, fun _ => rfl⟩

end Still

section Follows

variable {α : Type} {first last again ledger other after : Ledger} {call : Call α} {value : α}
  {calls done : List Step} {marks seen : List Mark}

/-- The second run, which began in `again`, when the first one is in `ledger`. -/
structure Follows (again ledger other : Ledger) : Prop where
  stacked : other.Stacked
  live_eq : other.live = ledger.live ++ again.live
  outer_eq : other.outer = again.outer
  cursor_eq : other.arena.cursor = ledger.arena.cursor
  pageLength?_eq : ∀ i, other.arena.pageLength? i = again.arena.pageLength? i

theorem Follows.still (hfollows : again.Follows ledger other) (hstill : ledger.Still after)
    {later : Ledger} (hlater : other.Still later) : again.Follows after later where
  stacked := hlater.stacked
  live_eq := by rw [hlater.live_eq, hfollows.live_eq, hstill.live_eq]
  outer_eq := hlater.outer_eq.trans hfollows.outer_eq
  cursor_eq := by rw [hlater.cursor_eq, hfollows.cursor_eq, hstill.cursor_eq]
  pageLength?_eq i := (hlater.pageLength?_eq i).trans (hfollows.pageLength?_eq i)

theorem Follows.mem_live (hfollows : again.Follows ledger other) {holding : Holding}
    (hmem : holding ∈ ledger.live) : holding ∈ other.live := by
  rw [hfollows.live_eq]
  exact List.mem_append_left _ hmem

theorem overwritten?_of_moves (hmoves : call.moves = true) : call.overwritten? = none := by
  cases call with
  | alignedAlloc | alloc | realloc | free => rfl
  | allocZero | construct | header | bytes | overwrite | read => cases hmoves

theorem Follows.allows (hfollows : again.Follows ledger other) (hmoves : call.moves = true)
    (hallows : ledger.Allows (.call call)) : other.Allows (.call call) := by
  obtain ⟨hword, htaken, _⟩ := hallows
  refine ⟨hword, ?_, ?_⟩
  · intro handle hhandle
    obtain ⟨holding, hmem, hsame⟩ := List.mem_map.mp (htaken handle hhandle)
    exact List.mem_map.mpr ⟨holding, hfollows.mem_live hmem, hsame⟩
  · rw [overwritten?_of_moves hmoves]
    exact nofun

theorem Follows.decoded?_eq (hfollows : again.Follows ledger other) (hstacked : ledger.Stacked)
    {handle : Handle} (hhandle : handle ∈ ledger.live.map Holding.handle) :
    other.arena.decoded? handle = ledger.arena.decoded? handle := by
  obtain ⟨holding, hmem, rfl⟩ := List.mem_map.mp hhandle
  have hother := List.mem_append_left (other.outer.flatMap Frame.live) (hfollows.mem_live hmem)
  rw [hstacked.decoded holding (List.mem_append_left _ hmem),
    hfollows.stacked.decoded holding hother]

theorem Follows.handle_ne (hfollows : again.Follows ledger other) {handle : Handle}
    (hhandle : handle ∈ ledger.live.map Holding.handle) {holding : Holding}
    (hmem : holding ∈ again.live) : holding.handle ≠ handle := by
  obtain ⟨newer, hnewer, rfl⟩ := List.mem_map.mp hhandle
  have hstack := hfollows.stacked.stack
  rw [hfollows.live_eq] at hstack
  have hlt := (List.pairwise_append.mp hstack.pairwise_position).2.2 newer hnewer holding hmem
  intro hsame
  exact lt_irrefl _ (hsame ▸ hlt)

theorem mark_of_ok {final : Arena} {events : List Event}
    (hrun : call.run ledger.arena = ⟨.ok value, final, events⟩) :
    ledger.mark call = ⟨.ok (call.issued? value), final.cursor⟩ := by
  simp only [mark, next, perform_eq, hrun]

/-- A call that succeeds in the first run succeeds in the second, which then still follows it. -/
theorem Follows.next (hfollows : again.Follows ledger other) (hstacked : ledger.Stacked)
    (hmoves : call.moves = true) (hallows : ledger.Allows (.call call))
    (hreply : (ledger.perform call).reply = .ok value)
    (hbacked : ∀ i ≤ (ledger.next (.call call)).arena.cursor.page,
      again.arena.pageLength? i = (ledger.next (.call call)).arena.pageLength? i) :
    other.mark call = ledger.mark call ∧
      again.Follows (ledger.next (.call call)) (other.next (.call call)) := by
  have hother := hfollows.allows hmoves hallows
  have hafter := hfollows.stacked.next hother
  obtain ⟨hword, htaken, _⟩ := id hallows
  have hclimbs := hstacked.climbs hallows
  rw [perform_eq] at hreply
  have hrun := Outcome.eq_of_reply hreply
  have hnext := next_of_ok hrun
  rw [hnext] at hclimbs hbacked ⊢
  have hbacks : other.arena.Backs ledger.arena (call.run ledger.arena).state :=
    ⟨hfollows.cursor_eq, hclimbs, fun i hi => (hfollows.pageLength?_eq i).trans (hbacked i hi)⟩
  have hdecoded (handle : Handle) (hhandle : handle ∈ call.taken?) :
      other.arena.decoded? handle = ledger.arena.decoded? handle :=
    hfollows.decoded?_eq hstacked (htaken handle hhandle)
  obtain ⟨⟨hreply', hlengths⟩, hcursor, hissued⟩ :=
    hbacks.run hstacked.sound hmoves hword hdecoded (hstacked.serves_taken hallows) hrun
  have hrerun := Outcome.eq_of_reply hreply'
  refine ⟨?_, hafter, ?_, hfollows.outer_eq, ?_, ?_⟩
  · rw [mark_of_ok hrun, mark_of_ok hrerun, hcursor]
  · have hwritten (handle : Handle) (hhandle : handle ∈ call.issued? value) :
        (call.run other.arena).state.written handle =
          (call.run ledger.arena).state.written handle := by
      obtain ⟨header, hfirst, hsecond⟩ := hissued handle hhandle
      rw [written_eq hfirst, written_eq hsecond]
    have hothers (holding : Holding) (hmem : holding ∈ again.live) (handle : Handle)
        (hhandle : handle ∈ call.taken?) : holding.handle ≠ handle :=
      hfollows.handle_ne (htaken handle hhandle) hmem
    rw [next_of_ok hrerun, hfollows.live_eq, settle_congr hwritten, settle_append hothers]
  · rw [next_of_ok hrerun]
    exact hcursor
  · rw [next_of_ok hrerun]
    exact fun i => (hlengths i).trans (hfollows.pageLength?_eq i)

/-- What a run can be repeated on: the cursor stands where it began, and the pages are those that it
ended with. -/
structure Resumes (first last again : Ledger) : Prop where
  stacked : again.Stacked
  cursor_eq : again.arena.cursor = first.arena.cursor
  pageLength?_eq : ∀ i, again.arena.pageLength? i = last.arena.pageLength? i

theorem Pass.follows (hpass : Pass first calls marks ledger) (hfirst : first.Stacked)
    (hlive : first.live = []) (hagain : again.Stacked)
    (hcursor : again.arena.cursor = first.arena.cursor)
    (hbacked : ∀ i ≤ ledger.arena.cursor.page,
      again.arena.pageLength? i = ledger.arena.pageLength? i)
    (hreplay : Replay again calls seen other) : seen = marks ∧ again.Follows ledger other := by
  induction hpass generalizing seen other with
  | start hidles =>
    cases hreplay with
    | start hlater =>
      have hstart : again.Follows first again :=
        ⟨hagain, by rw [hlive, List.nil_append], rfl, hcursor, fun _ => rfl⟩
      exact ⟨rfl, hstart.still (hidles.still hfirst) (hlater.still hagain)⟩
  | call hpass call hmoves hallows hreply hidles ih =>
    cases hreplay with
    | call hreplay _ hlater =>
      have hstacked := hpass.stacked hfirst
      have hstill := hidles.still (hstacked.next hallows)
      -- The pages up to the cursor of a ledger are those that the rest of the run leaves there.
      have hbefore (i : Nat) (hi : i ≤ _) := (hbacked i (hstill.cursor_eq ▸ hi)).trans
        (hstill.pageLength?_eq i)
      have hclimbs := hstacked.climbs hallows
      obtain ⟨rfl, hfollows⟩ := ih (fun i hi => (hbefore i (Nat.le_trans hi hclimbs.page_le)).trans
        (hclimbs.pageLength?_eq i hi)) hreplay
      obtain ⟨hmark, hnext⟩ := hfollows.next hstacked hmoves hallows hreply hbefore
      rw [hmark]
      exact ⟨rfl, hnext.still hstill (hlater.still hnext.stacked)⟩

theorem Pass.resumes (hpass : Pass first calls marks last) (hfirst : first.Stacked)
    (hlive : first.live = []) (hresumes : first.Resumes last again) (hdone : done <:+ calls)
    (hreplay : Replay again done seen other) :
    seen <:+ marks ∧ other.Stacked ∧ other.outer = again.outer ∧
      ∀ i, other.arena.pageLength? i = last.arena.pageLength? i := by
  obtain ⟨expected, ledger, hsuffix, hprefix, hclimbs⟩ := hpass.suffix hfirst hdone
  have hbacked (i : Nat) (hi : i ≤ ledger.arena.cursor.page) :
      again.arena.pageLength? i = ledger.arena.pageLength? i :=
    (hresumes.pageLength?_eq i).trans (hclimbs.pageLength?_eq i hi)
  obtain ⟨rfl, hfollows⟩ :=
    hprefix.follows hfirst hlive hresumes.stacked hresumes.cursor_eq hbacked hreplay
  exact ⟨hsuffix, hfollows.stacked, hfollows.outer_eq,
    fun i => (hfollows.pageLength?_eq i).trans (hresumes.pageLength?_eq i)⟩

theorem Rewound.resumes (hrewound : Rewound calls last again) (hfirst : first.Stacked)
    (hbase : first.arena.cursor = base first.outer) (hlive : first.live = [])
    (hpass : Pass first calls marks last) : first.Resumes last again := by
  induction hrewound with
  | ended hends hallows =>
    obtain ⟨hstacked, hcursor, hlengths⟩ := (hpass.stacked hfirst).rewinds hends hallows
    rw [hpass.outer_eq hfirst, ← hbase] at hcursor
    exact ⟨hstacked, hcursor, hlengths⟩
  | @opened again _ ih =>
    have hopens : again.Allows .enter := trivial
    exact ⟨ih.stacked.next hopens, ih.cursor_eq, ih.pageLength?_eq⟩
  | repeated _ hbase hdone hreplay hends hallows ih =>
    obtain ⟨_, hother, houter, hpages⟩ := hpass.resumes hfirst hlive ih hdone hreplay
    obtain ⟨hstacked, hcursor, hlengths⟩ := hother.rewinds hends hallows
    rw [houter, ← hbase] at hcursor
    exact ⟨hstacked, hcursor.trans ih.cursor_eq, fun i => (hlengths i).trans (hpages i)⟩

end Follows

section Reachable

variable {σ : Type} {supply : Supply} {inlinePage : Nat} {settings : ArenaSettings} {state : σ}
  {start : Arena} {first last again other : Ledger} {calls done : List Step} {marks seen : List Mark}

/-- Calls that all succeeded from where a scope began, or from the first byte of the arena, show the
same when they are made again after the cursor was set back, however often that is done and whatever
the system would still grant, and add no page. -/
theorem replay_eq (hcreated : (create supply inlinePage settings state).reply = .ok start)
    (hreachable : Reachable start first) (hbase : first.arena.cursor = base first.outer)
    (hpass : Pass first calls marks last) (hrewound : Rewound calls last again)
    (hdone : done <:+ calls) (hreplay : Replay again done seen other) :
    seen <:+ marks ∧ other.arena.pageCount = last.arena.pageCount ∧
      other.arena.capacity = last.arena.capacity := by
  obtain ⟨_, rfl⟩ := reply_create_eq_ok_iff.mp hcreated
  have hfirst := hreachable.stacked (stacked_fresh supply inlinePage settings)
  have hlive : first.live = [] := (hbase ▸ hfirst.stack).eq_nil
  have hresumes := hrewound.resumes hfirst hbase hlive hpass
  obtain ⟨hseen, _, _, hlengths⟩ := hpass.resumes hfirst hlive hresumes hdone hreplay
  exact ⟨hseen, pageCount_congr hlengths, capacity_congr hlengths⟩

/-- A scope is opened twice in which an allocation moves to a page that is added in front of a spare
one, and the spare one is used. The second time the system has nothing to give, and what is written to
it differs. -/
theorem replay_eq_of_inserted_page :
    let start := fresh Supply.ample 128 ⟨"scratch", 64, some 2, true⟩
    let outer := (((next ⟨start, [], []⟩ (.call (.alloc 16))).next .enter).next
      (.call (.alloc 50))).next .leave
    let filled (ledger : Ledger) (data : ByteArray) :=
      (ledger.next (.call (.alloc 16))).next (.call (.overwrite ⟨0, 80⟩ 0 data))
    let moved (ledger : Ledger) (data : ByteArray) :=
      (filled ledger data).next (.call (.realloc ⟨0, 80⟩ 64))
    let first := outer.next .enter
    let last := (moved first ⟨#[1, 2]⟩).next (.call (.alloc 16))
    let again := (last.next .leave).next .enter
    let starved := again.next (.supply .exhausted)
    let other := (moved starved ⟨#[3]⟩).next (.call (.alloc 16))
    let calls : List Step := [.call (.alloc 16), .call (.realloc ⟨0, 80⟩ 64), .call (.alloc 16)]
    let marks : List Mark := [⟨.ok (some ⟨2, 32⟩), ⟨2, 48⟩⟩, ⟨.ok (some ⟨1, 32⟩), ⟨1, 96⟩⟩,
      ⟨.ok (some ⟨0, 80⟩), ⟨0, 96⟩⟩]
    outer.arena.pages.map ByteArray.size = [128, 97] ∧
      last.arena.pages.map ByteArray.size = [128, 111, 97] ∧ Pass first calls marks last ∧
      Rewound calls last again ∧ ∃ seen, Replay again calls seen other ∧ seen <:+ marks ∧
        other.arena.pageCount = last.arena.pageCount ∧
          other.arena.capacity = last.arena.capacity := by
  intro start outer filled moved first last again starved other calls marks
  have hcreated : (create Supply.ample 128 ⟨"scratch", 64, some 2, true⟩ ()).reply = .ok start :=
    reply_create_eq_ok_iff.mpr ⟨by decide, rfl⟩
  have hinside : Reachable start ((next ⟨start, [], []⟩ (.call (.alloc 16))).next .enter) :=
    (Reachable.start.step (.call (.alloc 16)) ⟨by decide, nofun, nofun⟩).step .enter trivial
  have houter : Reachable start outer :=
    (hinside.step (.call (.alloc 50)) ⟨by decide, nofun, nofun⟩).step .leave (List.cons_ne_nil _ _)
  have hbase : first.arena.cursor = base first.outer := by decide +kernel
  have hidles (ledger : Ledger) (data : ByteArray)
      (hlive : ⟨0, 80⟩ ∈ (ledger.next (.call (.alloc 16))).held.map Holding.handle) :
      (ledger.next (.call (.alloc 16))).Idles (filled ledger data) :=
    Idles.refl.step _ ⟨rfl, rfl⟩ ⟨nofun, nofun, by rintro handle ⟨⟩; exact hlive⟩
  have hpass : Pass first calls marks last := by
    have hplaced : (first.perform (.alloc 16)).reply = .ok ⟨0, 80⟩ := by decide +kernel
    have hmoved : ((filled first ⟨#[1, 2]⟩).perform (.realloc ⟨0, 80⟩ 64)).reply =
        .ok ⟨1, 32⟩ := by decide +kernel
    have hspilled : ((moved first ⟨#[1, 2]⟩).perform (.alloc 16)).reply = .ok ⟨2, 32⟩ := by
      decide +kernel
    have hallows : (filled first ⟨#[1, 2]⟩).Allows (.call (.realloc ⟨0, 80⟩ 64)) :=
      ⟨nofun, by rintro handle ⟨⟩; decide +kernel, nofun⟩
    have hmarks : [(moved first ⟨#[1, 2]⟩).mark (.alloc 16),
        (filled first ⟨#[1, 2]⟩).mark (.realloc ⟨0, 80⟩ 64), first.mark (.alloc 16)] = marks := by
      decide +kernel
    have hfilled : Pass first [.call (.alloc 16)] [first.mark (.alloc 16)] (filled first ⟨#[1, 2]⟩) :=
      .call (.start .refl) _ rfl ⟨by decide, nofun, nofun⟩ hplaced (hidles first _ (by decide +kernel))
    rw [← hmarks]
    exact (hfilled.call _ rfl hallows hmoved .refl).call _ rfl ⟨by decide, nofun, nofun⟩ hspilled .refl
  have hleaves : last.Allows .leave := List.cons_ne_nil _ _
  have hrewound : Rewound calls last again := (Rewound.ended (Or.inl rfl) hleaves).opened
  have hreplay : Replay again calls _ other :=
    (((Replay.start (Idles.refl.supply .exhausted)).call (.alloc 16)
      (hidles starved ⟨#[3]⟩ (by decide +kernel))).call (.realloc ⟨0, 80⟩ 64) .refl).call
        (.alloc 16) .refl
  refine ⟨by decide +kernel, by decide +kernel, hpass, hrewound, _, hreplay, ?_⟩
  exact replay_eq hcreated (houter.step .enter trivial) hbase hpass hrewound List.suffix_rfl hreplay

end Reachable

end Ledger

end Arena

end HandleAlloc
