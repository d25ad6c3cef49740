/-
# Byte strings

Every wire format of this library is a list of bytes.  A 16-bit word travels as
two bytes, the high one first; `ofBigEndian_bigEndian` says that reading such a
pair back gives the word.  `pieces` cuts a byte string as a wire may, and
`flatten_pieces` says that nothing is lost by it.
-/

namespace RemoteTerminal

/-- A byte string: what a wire carries, oldest byte first. -/
abbrev Bytes := List UInt8

/-- The bytes of a text in UTF-8. -/
def utf8 (text : String) : Bytes := text.toUTF8.toList

/-- The bytes of an ASCII text given by its characters. -/
def ascii (text : String) : Bytes := text.toList.map fun c => UInt8.ofNat c.toNat

/-- The two bytes of a 16-bit word, the high byte first. -/
def bigEndian (word : UInt16) : Bytes :=
  [UInt8.ofNat (word.toNat / 256), UInt8.ofNat (word.toNat % 256)]

@[simp] theorem bigEndian_length (word : UInt16) : (bigEndian word).length = 2 := rfl

/-- The 16-bit word whose high and low bytes are given. -/
def ofBigEndian (high low : UInt8) : UInt16 :=
  UInt16.ofNat (high.toNat * 256 + low.toNat)

/-- A word read back from its two bytes is the word. -/
theorem ofBigEndian_bigEndian (word : UInt16) :
    ofBigEndian (UInt8.ofNat (word.toNat / 256)) (UInt8.ofNat (word.toNat % 256)) = word := by
  have h : word.toNat < 65536 := word.toNat_lt
  apply UInt16.toNat_inj.1
  simp only [ofBigEndian, UInt8.toNat_ofNat', UInt16.toNat_ofNat']
  omega

/-- The pieces of some bytes, of `size` each but for the last; a size of zero asks
for a single piece. -/
def pieces (size : Nat) (data : Bytes) : List Bytes :=
  if _h : size = 0 ∨ data.length ≤ size then [data]
  else data.take size :: pieces size (data.drop size)
termination_by data.length
decreasing_by simp only [List.length_drop]; omega

/-- The pieces make up the whole. -/
@[simp] theorem flatten_pieces (size : Nat) (data : Bytes) : (pieces size data).flatten = data := by
  fun_induction pieces size data with
  | case1 => simp
  | case2 data h ih => simp [ih]

end RemoteTerminal
