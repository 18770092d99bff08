import Mathlib.Data.Option.Basic
import Mathlib.Order.Defs.PartialOrder
import HandleAlloc.Arena
import HandleAlloc.Proofs.Header
/-!
# Positions and pages of arenas

A cursor is also the position of a byte: `⟨i, j⟩` is byte `j` of page `i`. Positions ascend by page
and then within the page, which is the order in which an arena hands them out. `Kept c arena after`
says of two arenas that the pages up to that of `c` stay where they are and as long as they are, and
that every byte before `c` stays as it is; a header before `c` still reads the same.
-/

namespace HandleAlloc

namespace Cursor

instance : Preorder Cursor where
  le a b := a.page < b.page ∨ a.page = b.page ∧ a.top ≤ b.top
  lt a b := a.page < b.page ∨ a.page = b.page ∧ a.top < b.top
  le_refl _ := Or.inr ⟨rfl, Nat.le_refl _⟩
  le_trans _ _ _ hab hbc := by omega
  lt_iff_le_not_ge a b := by omega

theorem le_iff {a b : Cursor} : a ≤ b ↔ a.page < b.page ∨ a.page = b.page ∧ a.top ≤ b.top :=
  Iff.rfl

instance : DecidableLE Cursor := fun _ _ => decidable_of_iff _ le_iff.symm

theorem lt_iff {a b : Cursor} : a < b ↔ a.page < b.page ∨ a.page = b.page ∧ a.top < b.top :=
  Iff.rfl

theorem start_le (c : Cursor) : start ≤ c := by
  simp only [le_iff, start]
  omega

theorem page_le {a b : Cursor} (hle : a ≤ b) : a.page ≤ b.page := by
  rw [le_iff] at hle
  omega

end Cursor

/-- The position of the first usable byte. -/
def Handle.position (handle : Handle) : Cursor := ⟨handle.page, handle.offset⟩

def Handle.start (handle : Handle) (header : Header) : Cursor := ⟨handle.page, header.start⟩

/-- The position after the last one of an allocation. -/
def Handle.stop (handle : Handle) (header : Header) : Cursor :=
  ⟨handle.page, handle.offset + header.size⟩

theorem Handle.stop_eq_iff {handle : Handle} {header : Header} {c : Cursor} :
    handle.stop header = c ↔ handle.page = c.page ∧ handle.offset + header.size = c.top := by
  cases c
  rw [stop, Cursor.mk.injEq]

theorem Handle.position_le_stop (handle : Handle) (header : Header) :
    handle.position ≤ handle.stop header :=
  Or.inr ⟨rfl, Nat.le_add_right _ _⟩

theorem Handle.start_lt_position {handle : Handle} {header : Header} {size alignment : Nat}
    (hserves : header.Serves handle.offset size alignment) :
    handle.start header < handle.position := by
  have hstart := hserves.start_le
  rw [headerSize] at hstart
  exact Or.inr ⟨rfl, show header.start < handle.offset by omega⟩

theorem Handle.position_lt_stop {handle : Handle} {header : Header} {size alignment : Nat}
    (hserves : header.Serves handle.offset size alignment) :
    handle.position < handle.stop header := by
  have hpos := hserves.pos
  have hle := hserves.le_size
  exact Or.inr ⟨rfl, show handle.offset < handle.offset + header.size by omega⟩

theorem Handle.start_lt_stop {handle : Handle} {header : Header} {size alignment : Nat}
    (hserves : header.Serves handle.offset size alignment) :
    handle.start header < handle.stop header :=
  lt_trans (start_lt_position hserves) (position_lt_stop hserves)

namespace Arena

def byte? (arena : Arena) (position : Cursor) : Option UInt8 :=
  arena.pages[position.page]?.bind (·[position.top]?)

def pageLength? (arena : Arena) (index : Nat) : Option Nat := arena.pages[index]?.map ByteArray.size

/-- The header before a handle, if it is acceptable, wherever the cursor stands. -/
def decoded? (arena : Arena) (handle : Handle) : Option Header :=
  arena.pages[handle.page]?.bind fun page => Header.read? page handle.offset arena.validate

section Header

variable {arena after : Arena} {handle : Handle} {header : Header}

theorem header?_eq_some_iff : arena.header? handle = some header ↔
    arena.decoded? handle = some header ∧ handle.stop header ≤ arena.cursor := by
  simp only [header?, decoded?, Option.bind_eq_bind, Option.bind_eq_some_iff, Option.guard_eq_some',
    Option.pure_def, Option.some.injEq, Cursor.le_iff, Handle.stop]
  constructor
  · rintro ⟨_, hle, page, hpage, _, hread, _, htop, rfl⟩
    exact ⟨⟨page, hpage, hread⟩, by omega⟩
  · rintro ⟨⟨page, hpage, hread⟩, hstop⟩
    exact ⟨(), by omega, page, hpage, header, hread, (), by omega, rfl⟩

theorem decoded?_eq_some_iff : arena.decoded? handle = some header ↔
    ∃ page, arena.pages[handle.page]? = some page ∧
      Header.read? page handle.offset arena.validate = some header :=
  Option.bind_eq_some_iff

theorem decoded?_congr (hvalidate : after.validate = arena.validate)
    (hsize : after.pageLength? handle.page = arena.pageLength? handle.page)
    (hbytes : ∀ i ∈ interval (handle.offset - headerSize) handle.offset,
      after.byte? ⟨handle.page, i⟩ = arena.byte? ⟨handle.page, i⟩) :
    after.decoded? handle = arena.decoded? handle := by
  simp only [pageLength?, byte?, decoded?] at hsize hbytes ⊢
  cases hafter : after.pages[handle.page]? with
  | none =>
    rw [hafter, Option.map_none, eq_comm, Option.map_eq_none_iff] at hsize
    rw [hsize, Option.bind_none, Option.bind_none]
  | some page =>
    rw [hafter, Option.map_some, eq_comm, Option.map_eq_some_iff] at hsize
    obtain ⟨other, hother, hsize⟩ := hsize
    simp only [hafter, hother, Option.bind_some] at hbytes ⊢
    rw [hvalidate, Header.read?_congr hsize.symm hbytes]

end Header

theorem load_congr {arena after : Arena} {place : Region}
    (hsize : after.pageLength? place.page = arena.pageLength? place.page)
    (hbytes : ∀ i ∈ interval place.offset (place.offset + place.size),
      after.byte? ⟨place.page, i⟩ = arena.byte? ⟨place.page, i⟩) :
    load place after = load place arena := by
  simp only [pageLength?, byte?, load] at hsize hbytes ⊢
  cases hafter : after.pages[place.page]? with
  | none =>
    rw [hafter, Option.map_none, eq_comm, Option.map_eq_none_iff] at hsize
    rw [hsize]
  | some page =>
    rw [hafter, Option.map_some, eq_comm, Option.map_eq_some_iff] at hsize
    obtain ⟨other, hother, hsize⟩ := hsize
    simp only [hafter, hother, Option.bind_some] at hbytes ⊢
    exact Memory.extract_congr hsize.symm hbytes

theorem size_load {arena : Arena} {handle : Handle} {header : Header}
    (hdecoded : arena.decoded? handle = some header) :
    (load ⟨handle.page, handle.offset, header.size⟩ arena).size = header.size := by
  obtain ⟨page, hpage, hread⟩ := decoded?_eq_some_iff.mp hdecoded
  have hstop := (Header.within_of_read? hread).stop_le
  simp only [load, hpage, ByteArray.size_extract]
  omega

theorem extract_load (arena : Arena) (handle : Handle) {least size : Nat} (hle : least ≤ size) :
    (load ⟨handle.page, handle.offset, size⟩ arena).extract 0 least =
      load ⟨handle.page, handle.offset, least⟩ arena := by
  simp only [load]
  split
  · rw [ByteArray.extract_extract, Nat.add_zero, Nat.min_eq_left (Nat.add_le_add_left hle _)]
  · simp

/-! ## Changing a page -/

section UpdatePage

variable {arena : Arena} {index : Nat} {change : ByteArray → ByteArray}

@[simp] theorem name_updatePage : (arena.updatePage index change).name = arena.name := by
  cases index <;> rfl

@[simp] theorem cursor_updatePage : (arena.updatePage index change).cursor = arena.cursor := by
  cases index <;> rfl

@[simp] theorem validate_updatePage :
    (arena.updatePage index change).validate = arena.validate := by
  cases index <;> rfl

theorem getElem?_pages_updatePage (i : Nat) : (arena.updatePage index change).pages[i]? =
    if index = i then arena.pages[i]?.map change else arena.pages[i]? := by
  rw [pages_updatePage, List.getElem?_modify]
  split
  · rfl
  · exact Option.map_id'

@[simp] theorem length_pages_updatePage :
    (arena.updatePage index change).pages.length = arena.pages.length := by
  rw [pages_updatePage, List.length_modify]

theorem pageLength?_updatePage (hsize : ∀ page, (change page).size = page.size) (i : Nat) :
    (arena.updatePage index change).pageLength? i = arena.pageLength? i := by
  rw [pageLength?, pageLength?, getElem?_pages_updatePage]
  split
  · rw [Option.map_map, Function.comp_def]
    simp only [hsize]
  · rfl

theorem byte?_updatePage {position : Cursor}
    (hbyte : ∀ page : ByteArray, position.page = index →
      (change page)[position.top]? = page[position.top]?) :
    (arena.updatePage index change).byte? position = arena.byte? position := by
  rw [byte?, byte?, getElem?_pages_updatePage]
  split
  · rw [Option.bind_map, Function.comp_def]
    have hsame (page : ByteArray) := hbyte page (Eq.symm ‹_›)
    simp only [hsame]
  · rfl

end UpdatePage

/-! ## What stays before a position -/

/-- Up to the page of `c` no page was added or taken away, and no byte before `c` was written. -/
structure Kept (c : Cursor) (arena after : Arena) : Prop where
  name_eq : after.name = arena.name
  validate_eq : after.validate = arena.validate
  pageCount_le : arena.pageCount ≤ after.pageCount
  pageLength?_eq : ∀ i ≤ c.page, after.pageLength? i = arena.pageLength? i
  byte?_eq : ∀ position < c, after.byte? position = arena.byte? position

namespace Kept

variable {c d : Cursor} {arena middle after : Arena} {handle : Handle} {header : Header}

theorem refl (c : Cursor) (arena : Arena) : Kept c arena arena :=
  ⟨rfl, rfl, Nat.le_refl _, fun _ _ => rfl, fun _ _ => rfl⟩

theorem trans (hfirst : Kept c arena middle) (hsecond : Kept c middle after) :
    Kept c arena after where
  name_eq := hsecond.name_eq.trans hfirst.name_eq
  validate_eq := hsecond.validate_eq.trans hfirst.validate_eq
  pageCount_le := Nat.le_trans hfirst.pageCount_le hsecond.pageCount_le
  pageLength?_eq i hi := (hsecond.pageLength?_eq i hi).trans (hfirst.pageLength?_eq i hi)
  byte?_eq p hp := (hsecond.byte?_eq p hp).trans (hfirst.byte?_eq p hp)

theorem mono (hkept : Kept c arena after) (hle : d ≤ c) : Kept d arena after :=
  { hkept with
    pageLength?_eq := fun i hi => hkept.pageLength?_eq i (Nat.le_trans hi (Cursor.page_le hle))
    byte?_eq := fun p hp => hkept.byte?_eq p (lt_of_lt_of_le hp hle) }

theorem withCursor (hkept : Kept c arena after) (cursor : Cursor) :
    Kept c arena { after with cursor } :=
  ⟨hkept.name_eq, hkept.validate_eq, hkept.pageCount_le, hkept.pageLength?_eq, hkept.byte?_eq⟩

theorem withSupply (hkept : Kept c arena after) (supply : Supply) :
    Kept c arena { after with supply } :=
  ⟨hkept.name_eq, hkept.validate_eq, hkept.pageCount_le, hkept.pageLength?_eq, hkept.byte?_eq⟩

theorem updatePage {index : Nat} {change : ByteArray → ByteArray}
    (hsize : ∀ page, (change page).size = page.size)
    (hbytes : ∀ (page : ByteArray) (j : Nat), ⟨index, j⟩ < c → (change page)[j]? = page[j]?) :
    Kept c arena (arena.updatePage index change) where
  name_eq := name_updatePage
  validate_eq := validate_updatePage
  pageCount_le := Nat.le_of_eq length_pages_updatePage.symm
  pageLength?_eq i _ := pageLength?_updatePage hsize i
  byte?_eq position hposition := by
    apply byte?_updatePage
    rintro page rfl
    exact hbytes page position.top hposition

theorem decoded?_eq (hkept : Kept c arena after) (hbefore : handle.position ≤ c) :
    after.decoded? handle = arena.decoded? handle := by
  apply decoded?_congr hkept.validate_eq (hkept.pageLength?_eq _ (Cursor.page_le hbefore))
  intro i hi
  rw [mem_interval] at hi
  refine hkept.byte?_eq _ (lt_of_lt_of_le ?_ hbefore)
  exact Or.inr ⟨rfl, hi.2⟩

theorem load_eq (hkept : Kept c arena after) {place : Region}
    (hbefore : ⟨place.page, place.offset + place.size⟩ ≤ c) :
    load place after = load place arena := by
  apply load_congr (hkept.pageLength?_eq _ (Cursor.page_le hbefore))
  intro i hi
  rw [mem_interval] at hi
  refine hkept.byte?_eq _ (lt_of_lt_of_le ?_ hbefore)
  exact Or.inr ⟨rfl, hi.2⟩

end Kept

end Arena

end HandleAlloc
