import HandleAlloc.Memory
import HandleAlloc.Word
/-!
# Headers

Every allocation is described by a header of four little-endian words, stored in the 32
bytes just before its usable bytes. Headers lie in memory that callers may overwrite, so
reading one checks what it says: `read?` gives a header only if the region it describes lies
within the page.
-/

namespace HandleAlloc

structure Header where
  /-- The first byte the allocation owns, padding included. -/
  start : Nat
  size : Nat
  alignment : Nat
  /-- The offset of the usable bytes. -/
  selfOffset : Nat
  deriving DecidableEq, Repr

def headerSize : Nat := 32

namespace Header

/-- Where the usable bytes of a request start if its first byte is `start`: after room for a
header, at the next multiple of the alignment. Nothing when they would not end at a machine
word. -/
def place? (start size alignment : Nat) : Option Nat := do
  let first ← addWord? start headerSize
  let offset ← alignUp first alignment
  let _ ← addWord? offset size
  return offset

/-- The bytes an allocation owns, from its first one to the end of its usable bytes. Nothing
when that end is no machine word or lies before the first byte. -/
def span (header : Header) : Option Nat := do
  let stop ← addWord? header.selfOffset header.size
  if header.start ≤ stop then some (stop - header.start) else none

def words (header : Header) : List Nat :=
  [header.start, header.size, header.alignment, header.selfOffset]

def encode (header : Header) : ByteArray :=
  ⟨(header.words.flatMap (LittleEndian.encode 8)).toArray⟩

private def wordAt (bytes : List UInt8) (position : Nat) : Nat :=
  LittleEndian.decode ((bytes.drop position).take 8)

def decode (bytes : ByteArray) : Header :=
  let bytes := bytes.data.toList
  ⟨wordAt bytes 0, wordAt bytes 8, wordAt bytes 16, wordAt bytes 24⟩

theorem decode_eq (bytes : ByteArray) : decode bytes =
    ⟨LittleEndian.decode ((bytes.data.toList.drop 0).take 8),
      LittleEndian.decode ((bytes.data.toList.drop 8).take 8),
      LittleEndian.decode ((bytes.data.toList.drop 16).take 8),
      LittleEndian.decode ((bytes.data.toList.drop 24).take 8)⟩ := rfl

@[simp] theorem size_encode (header : Header) : header.encode.size = headerSize := by
  rw [encode, ← ByteArray.size_data]
  simp [words, headerSize]

def InWords (header : Header) : Prop := ∀ field ∈ header.words, field < wordSize

theorem decode_encode {header : Header} (hwords : header.InWords) :
    decode header.encode = header := by
  have hround (field : Nat) (hfield : field ∈ header.words) :
      LittleEndian.decode (LittleEndian.encode 8 field) = field := by
    rw [LittleEndian.decode_encode, Nat.mod_eq_of_lt]
    exact hwords field hfield
  simp only [words, List.mem_cons, List.not_mem_nil, or_false, forall_eq_or_imp,
    forall_eq] at hround
  obtain ⟨hstart, hsize, halignment, hself⟩ := hround
  simp [decode, encode, wordAt, words, List.drop_append,
    List.drop_eq_nil_of_le, List.take_of_length_le, hstart, hsize, halignment, hself]

/-- Whatever bytes a header is read from, its fields are machine words. -/
theorem inWords_decode (bytes : ByteArray) : (decode bytes).InWords := by
  have hword (position : Nat) : wordAt bytes.data.toList position < wordSize := by
    rw [wordAt, ← LittleEndian.range_eight]
    refine Nat.lt_of_lt_of_le (LittleEndian.decode_lt _) (LittleEndian.range_mono ?_)
    rw [List.length_take]
    exact Nat.min_le_left _ _
  simp [InWords, words, decode, hword]

/-- Whether the header before `offset` describes a region within a page of `length` bytes. -/
def describesRegion (header : Header) (offset length : Nat) : Bool :=
  decide header.alignment.isPowerOfTwo && header.start ≤ offset - headerSize &&
    (addWord? offset header.size).any (· ≤ length)

/-- Whether a header is of the kind that allocations write: it holds its own offset, which is
aligned, and some bytes. -/
def isGenuine (header : Header) (offset : Nat) : Bool :=
  header.selfOffset == offset && header.size != 0 && offset % header.alignment == 0

/-- The header before `offset`. It always has to describe a region within the page; with
`validate` it has to be genuine as well. -/
def read? (page : ByteArray) (offset : Nat) (validate : Bool) : Option Header :=
  if headerSize ≤ offset ∧ offset ≤ page.size then
    let header := decode (page.extract (offset - headerSize) offset)
    if header.describesRegion offset page.size && (!validate || header.isGenuine offset) then
      some header
    else none
  else none

def store (page : ByteArray) (offset : Nat) (header : Header) : ByteArray :=
  Memory.write page (offset - headerSize) header.encode

/-- Wipes the header before `offset`, so that nothing reads back. -/
def clear (page : ByteArray) (offset : Nat) : ByteArray :=
  Memory.write page (offset - headerSize) (Memory.zeros headerSize)

end Header

end HandleAlloc
