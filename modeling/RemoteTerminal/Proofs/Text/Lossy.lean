/-
# Text survives lossy reading

Reading bytes as text replaces what is not UTF-8.  The bytes of a text are, so reading
them gives the text (`lossyText_utf8`): each character takes one to four bytes, and the
machine is between characters again after the last of them (`run_utf8EncodeChar`).
-/

import RemoteTerminal.Text.Lossy

namespace RemoteTerminal

/-! ### The bytes of a text -/

theorem toList_loop_eq (bytes : ByteArray) (i : Nat) (r : List UInt8) :
    ByteArray.toList.loop bytes i r = r.reverse ++ bytes.data.toList.drop i := by
  fun_induction ByteArray.toList.loop bytes i r with
  | case1 i r h ih =>
    have hi : i < bytes.data.toList.length := by simpa using h
    have hget : bytes.get! i = bytes.data.toList[i] := by simp [ByteArray.get!, h]
    rw [ih, hget, List.drop_eq_getElem_cons hi, List.reverse_cons, List.append_assoc]
    rfl
  | case2 i r h =>
    have hi : bytes.data.toList.length ≤ i := by simpa using Nat.le_of_not_lt h
    rw [List.drop_eq_nil_of_le hi, List.append_nil]

/-- The bytes of a text are those of its characters. -/
theorem utf8_eq_flatMap (text : String) :
    utf8 text = text.toList.flatMap String.utf8EncodeChar := by
  unfold utf8
  rw [String.toUTF8_eq_toByteArray, ← String.utf8Encode_toList, ByteArray.toList, toList_loop_eq]
  simp [List.utf8Encode]

namespace Lossy

variable {bits k low high : Nat}

/-- A continuation byte in range is taken in. -/
theorem step_continuation (hk : k < 64) (missing : Nat) (hlow : low ≤ k + 0x80)
    (hhigh : k + 0x80 ≤ high) :
    step (some ⟨bits, missing, low, high⟩) (UInt8.ofNat (k + 0x80)) =
      if missing ≤ 1 then ([Char.ofNat (bits * 64 + k)], none)
      else ([], some ⟨bits * 64 + k, missing - 1, 0x80, 0xBF⟩) := by
  have hbyte : (UInt8.ofNat (k + 0x80)).toNat = k + 0x80 := by
    rw [UInt8.toNat_ofNat']
    omega
  have hbits : (k + 0x80) % 64 = k := by omega
  simp only [step, hbyte, hlow, hhigh, hbits, and_self, if_true]

/-- The last byte of a character. -/
theorem run_last (hk : k < 64) (hlow : low ≤ k + 0x80) (hhigh : k + 0x80 ≤ high) (rest : Bytes) :
    run (some ⟨bits, 1, low, high⟩) (UInt8.ofNat (k + 0x80) :: rest) =
      Char.ofNat (bits * 64 + k) :: run none rest := by
  rw [run, step_continuation hk 1 hlow hhigh]
  rfl

/-- A byte in the middle of a character. -/
theorem run_more (hk : k < 64) (missing : Nat) (hlow : low ≤ k + 0x80) (hhigh : k + 0x80 ≤ high)
    (rest : Bytes) :
    run (some ⟨bits, missing + 2, low, high⟩) (UInt8.ofNat (k + 0x80) :: rest) =
      run (some ⟨bits * 64 + k, missing + 1, 0x80, 0xBF⟩) rest := by
  rw [run, step_continuation hk (missing + 2) hlow hhigh]
  rfl

/-- The first of two bytes. -/
theorem start_two : ∀ bits < 32, 2 ≤ bits →
    start (UInt8.ofNat (bits + 0xC0)) = ([], some ⟨bits, 1, 0x80, 0xBF⟩) := by
  decide

/-- The first of three bytes, with the range of the second. -/
theorem start_three : ∀ bits < 16, start (UInt8.ofNat (bits + 0xE0)) =
    ([], some ⟨bits, 2, if bits = 0 then 0xA0 else 0x80, if bits = 0xD then 0x9F else 0xBF⟩) := by
  decide

/-- The first of four bytes, with the range of the second. -/
theorem start_four : ∀ bits < 5, start (UInt8.ofNat (bits + 0xF0)) =
    ([], some ⟨bits, 3, if bits = 0 then 0x90 else 0x80, if bits = 4 then 0x8F else 0xBF⟩) := by
  decide

/-- **A character is read back from its bytes.** -/
theorem run_utf8EncodeChar (c : Char) (rest : Bytes) :
    run none (String.utf8EncodeChar c ++ rest) = c :: run none rest := by
  have hvalid : c.val.toNat < 0xD800 ∨ 0xDFFF < c.val.toNat ∧ c.val.toNat < 0x110000 := c.valid
  have hchar {n : Nat} (h : n = c.val.toNat) : Char.ofNat n = c := by
    rw [h]
    exact Char.ofNat_toNat c
  have hfirst {byte : UInt8} {p : Partial} (h : start byte = ([], some p)) (more : Bytes) :
      run none (byte :: more) = run (some p) more := by
    rw [run, step, h]
    rfl
  unfold String.utf8EncodeChar
  dsimp only
  generalize c.val.toNat = v at hvalid hchar
  split
  · have hbyte : (UInt8.ofNat v).toNat = v := by
      rw [UInt8.toNat_ofNat']
      omega
    have hstart : start (UInt8.ofNat v) = ([Char.ofNat v], none) := by
      rw [start, hbyte]
      exact if_pos (by omega)
    rw [List.cons_append, run, step, hstart, hchar rfl]
    rfl
  · split
    · have h0 : v / 64 % 32 = v / 64 := by omega
      rw [h0, List.cons_append, hfirst (start_two _ (by omega) (by omega)), List.cons_append,
        run_last (by omega) (by omega) (by omega), hchar (by omega)]
      rfl
    · split
      · have h0 : v / 4096 % 16 = v / 4096 := by omega
        rw [h0, List.cons_append, hfirst (start_three _ (by omega)), List.cons_append,
          run_more (by omega) 0 (by split <;> omega) (by split <;> omega), List.cons_append,
          run_last (by omega) (by omega) (by omega), hchar (by omega)]
        rfl
      · have h0 : v / 262144 % 8 = v / 262144 := by omega
        rw [h0, List.cons_append, hfirst (start_four _ (by omega)), List.cons_append,
          run_more (by omega) 1 (by split <;> omega) (by split <;> omega), List.cons_append,
          run_more (by omega) 0 (by omega) (by omega), List.cons_append,
          run_last (by omega) (by omega) (by omega), hchar (by omega)]
        rfl

end Lossy

/-- **Text survives.** -/
theorem lossyText_utf8 (text : String) : lossyText (utf8 text) = text := by
  have hrun (chars : List Char) :
      Lossy.run none (chars.flatMap String.utf8EncodeChar) = chars := by
    induction chars with
    | nil => rfl
    | cons c rest ih => rw [List.flatMap_cons, Lossy.run_utf8EncodeChar, ih]
  rw [lossyText, utf8_eq_flatMap, hrun, String.ofList_toList]

/-- So a text is known from its bytes. -/
theorem utf8_inj {a b : String} (h : utf8 a = utf8 b) : a = b := by
  rw [← lossyText_utf8 a, h, lossyText_utf8]

end RemoteTerminal
