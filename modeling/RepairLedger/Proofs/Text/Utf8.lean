import RepairLedger.Text.Utf8

/-!
# Bytes that encode a text

The bytes of a text are read as its characters (`Text.symbols_encode`), and so they are decoded to
the text again (`Text.decode?_encode`).

A character has one to four bytes.  The first byte tells how many follow, and which ones may
(`Utf8.lead?_ofNat`); each byte that follows adds six bits to the code (`Utf8.Continues.cons`).
-/

namespace RepairLedger.Text

namespace Utf8

variable {payload code x : Nat} {ranges : List Range} {range : Range} {bytes rest : Bytes}

/-- What the first byte of a character says, by its number. -/
theorem lead?_ofNat {n : Nat} (hn : n < 256) :
    lead? (UInt8.ofNat n) =
      if n ≤ 0x7F then some (n, [])
      else if 0xC2 ≤ n ∧ n ≤ 0xDF then some (n - 0xC0, [tail])
      else if n = 0xE0 then some (0, [⟨0xA0, 0xBF⟩, tail])
      else if n = 0xED then some (13, [⟨0x80, 0x9F⟩, tail])
      else if 0xE1 ≤ n ∧ n ≤ 0xEF then some (n - 0xE0, [tail, tail])
      else if n = 0xF0 then some (0, [⟨0x90, 0xBF⟩, tail, tail])
      else if n = 0xF4 then some (4, [⟨0x80, 0x8F⟩, tail, tail])
      else if 0xF1 ≤ n ∧ n ≤ 0xF3 then some (n - 0xF0, [tail, tail, tail])
      else none := by
  have hnat : (UInt8.ofNat n).toNat = n := UInt8.toNat_ofNat_of_lt' hn
  simp only [lead?, UInt8.le_iff_toNat_le, Bool.and_eq_true, decide_eq_true_eq, beq_iff_eq,
    ← UInt8.toNat_inj, hnat, UInt8.reduceToNat]

/-- The bytes complete the character of the code, and the rest is left. -/
def Continues (payload : Nat) (ranges : List Range) (bytes : Bytes) (code : Nat) (rest : Bytes) :
    Prop :=
  (continuation payload ranges bytes).code? = some code ∧
    (continuation payload ranges bytes).rest = rest

theorem Continues.nil : Continues payload [] rest payload rest :=
  ⟨rfl, rfl⟩

/-- A byte that fits adds six bits. -/
theorem Continues.cons (hx : x < 64)
    (hr : range.first.toNat ≤ x + 0x80 ∧ x + 0x80 ≤ range.last.toNat)
    (h : Continues (payload * 64 + x) ranges bytes code rest) :
    Continues payload (range :: ranges) (UInt8.ofNat (x + 0x80) :: bytes) code rest := by
  have hnat : (UInt8.ofNat (x + 0x80)).toNat = x + 0x80 :=
    UInt8.toNat_ofNat_of_lt' (show x + 0x80 < 256 by omega)
  have hfits : (range.first ≤ UInt8.ofNat (x + 0x80) &&
      UInt8.ofNat (x + 0x80) ≤ range.last) = true := by
    rw [Bool.and_eq_true, decide_eq_true_eq, decide_eq_true_eq, UInt8.le_iff_toNat_le,
      UInt8.le_iff_toNat_le, hnat]
    exact hr
  unfold Continues
  rw [continuation, if_pos hfits, hnat, Nat.add_sub_cancel]
  exact h

end Utf8

open Utf8

variable {done : List Symbol} {bytes rest : Bytes}

/-- A first byte and the bytes that it asks for are one character. -/
theorem symbolsOnto_of_continues {b : UInt8} {payload code : Nat} {ranges : List Range}
    (hl : lead? b = some (payload, ranges)) (h : Continues payload ranges bytes code rest) :
    symbolsOnto done (b :: bytes) = symbolsOnto (.char (Char.ofNat code) :: done) rest := by
  rw [symbolsOnto, hl]
  simp only [h.1, h.2]

/-! ### The bytes of a character -/

section Parts

variable {n : Nat}

/-- The last byte of a character. -/
theorem continues_last (n : Nat) (rest : Bytes) :
    Continues (n / 64) [tail] (UInt8.ofNat (n % 64 + 0x80) :: rest) n rest := by
  have hcode : n / 64 * 64 + n % 64 = n := Nat.div_add_mod' n 64
  refine .cons (Nat.mod_lt n (by decide)) ?_ (hcode.symm ▸ .nil)
  simp only [tail, UInt8.reduceToNat]
  omega

/-- The last two bytes of a character, the first of which is in a range. -/
theorem continues_lastTwo {range : Range} (rest : Bytes)
    (hr : range.first.toNat ≤ n / 64 % 64 + 0x80 ∧ n / 64 % 64 + 0x80 ≤ range.last.toNat) :
    Continues (n / 4096) [range, tail]
      (UInt8.ofNat (n / 64 % 64 + 0x80) :: UInt8.ofNat (n % 64 + 0x80) :: rest) n rest := by
  have hcode : n / 4096 * 64 + n / 64 % 64 = n / 64 := by omega
  refine .cons (Nat.mod_lt _ (by decide)) hr ?_
  rw [hcode]
  exact continues_last n rest

/-- The last three bytes of a character, the first of which is in a range. -/
theorem continues_lastThree {range : Range} (rest : Bytes)
    (hr : range.first.toNat ≤ n / 4096 % 64 + 0x80 ∧ n / 4096 % 64 + 0x80 ≤ range.last.toNat) :
    Continues (n / 262144) [range, tail, tail]
      (UInt8.ofNat (n / 4096 % 64 + 0x80) :: UInt8.ofNat (n / 64 % 64 + 0x80) ::
        UInt8.ofNat (n % 64 + 0x80) :: rest) n rest := by
  have hcode : n / 262144 * 64 + n / 4096 % 64 = n / 4096 := by omega
  refine .cons (Nat.mod_lt _ (by decide)) hr ?_
  rw [hcode]
  refine continues_lastTwo rest ?_
  simp only [tail, UInt8.reduceToNat]
  omega

/-- The first of two bytes. -/
theorem lead?_two (h : 0x7F < n) (h' : n ≤ 0x7FF) :
    lead? (UInt8.ofNat (n / 64 % 0x20 + 0xC0)) = some (n / 64, [tail]) := by
  have hn : n / 64 % 0x20 + 0xC0 = n / 64 + 0xC0 := by omega
  rw [hn, lead?_ofNat (by omega), if_neg (by omega), if_pos (by omega), Nat.add_sub_cancel]

/-- The first of three bytes, and how the others fit. -/
theorem lead?_three (h : 0x7FF < n) (h' : n ≤ 0xFFFF) (hs : n < 0xD800 ∨ 0xDFFF < n) :
    ∃ range, lead? (UInt8.ofNat (n / 4096 % 0x10 + 0xE0)) = some (n / 4096, [range, tail]) ∧
      range.first.toNat ≤ n / 64 % 64 + 0x80 ∧ n / 64 % 64 + 0x80 ≤ range.last.toNat := by
  have hn : n / 4096 % 0x10 + 0xE0 = n / 4096 + 0xE0 := by omega
  rw [hn, lead?_ofNat (by omega), if_neg (by omega), if_neg (by omega)]
  -- What may follow the smallest first byte is bounded below, what may follow 0xED above.
  by_cases hzero : n / 4096 = 0
  · rw [if_pos (by omega), hzero]
    refine ⟨⟨0xA0, 0xBF⟩, rfl, ?_⟩
    simp only [UInt8.reduceToNat]
    omega
  by_cases hsurrogates : n / 4096 = 13
  · rw [if_neg (by omega), if_pos (by omega), hsurrogates]
    refine ⟨⟨0x80, 0x9F⟩, rfl, ?_⟩
    simp only [UInt8.reduceToNat]
    omega
  · rw [if_neg (by omega), if_neg (by omega), if_pos (by omega), Nat.add_sub_cancel]
    refine ⟨tail, rfl, ?_⟩
    simp only [tail, UInt8.reduceToNat]
    omega

/-- The first of four bytes, and how the others fit. -/
theorem lead?_four (h : 0xFFFF < n) (h' : n < 0x110000) :
    ∃ range, lead? (UInt8.ofNat (n / 262144 % 0x08 + 0xF0)) =
        some (n / 262144, [range, tail, tail]) ∧
      range.first.toNat ≤ n / 4096 % 64 + 0x80 ∧ n / 4096 % 64 + 0x80 ≤ range.last.toNat := by
  have hn : n / 262144 % 0x08 + 0xF0 = n / 262144 + 0xF0 := by omega
  rw [hn, lead?_ofNat (by omega), if_neg (by omega), if_neg (by omega), if_neg (by omega),
    if_neg (by omega), if_neg (by omega)]
  -- Here, too, the smallest first byte sets a lower bound and the greatest one an upper bound.
  by_cases hzero : n / 262144 = 0
  · rw [if_pos (by omega), hzero]
    refine ⟨⟨0x90, 0xBF⟩, rfl, ?_⟩
    simp only [UInt8.reduceToNat]
    omega
  by_cases hfour : n / 262144 = 4
  · rw [if_neg (by omega), if_pos (by omega), hfour]
    refine ⟨⟨0x80, 0x8F⟩, rfl, ?_⟩
    simp only [UInt8.reduceToNat]
    omega
  · rw [if_neg (by omega), if_neg (by omega), if_pos (by omega), Nat.add_sub_cancel]
    refine ⟨tail, rfl, ?_⟩
    simp only [tail, UInt8.reduceToNat]
    omega

end Parts

/-! ### Texts -/

/-- The bytes of a character are read as the character. -/
theorem symbolsOnto_encodeChar (done : List Symbol) (c : Char) (rest : Bytes) :
    symbolsOnto done (encodeChar c ++ rest) = symbolsOnto (.char c :: done) rest := by
  obtain ⟨n, hn⟩ : ∃ n, n = c.val.toNat := ⟨_, rfl⟩
  have hc : Char.ofNat n = c := by
    rw [hn]
    exact Char.ofNat_toNat c
  -- A code is no surrogate.
  have hvalid : n < 0xD800 ∨ 0xDFFF < n ∧ n < 0x110000 := by
    rw [hn]
    exact c.valid
  unfold encodeChar String.utf8EncodeChar
  rw [← hn, ← hc]
  -- One case for each number of bytes.
  dsimp only
  split
  · have hlead : lead? (UInt8.ofNat n) = some (n, []) := by
      rw [lead?_ofNat (by omega), if_pos ‹_›]
    exact symbolsOnto_of_continues hlead .nil
  split
  · exact symbolsOnto_of_continues (lead?_two (by omega) ‹_›) (continues_last n rest)
  split
  · obtain ⟨range, hlead, hr⟩ := lead?_three (n := n) (by omega) ‹_› (by omega)
    exact symbolsOnto_of_continues hlead (continues_lastTwo rest hr)
  · obtain ⟨range, hlead, hr⟩ := lead?_four (n := n) (by omega) (by omega)
    exact symbolsOnto_of_continues hlead (continues_lastThree rest hr)

theorem symbolsOnto_flatMap_encodeChar (done : List Symbol) (cs : List Char) :
    symbolsOnto done (cs.flatMap encodeChar) = done.reverse ++ cs.map .char := by
  induction cs generalizing done with
  | nil => simp [symbolsOnto]
  | cons c cs ih =>
    rw [List.flatMap_cons, symbolsOnto_encodeChar, ih, List.reverse_cons, List.append_assoc,
      List.singleton_append, List.map_cons]

/-- **The bytes of a text are read as its characters.** -/
theorem symbols_encode (s : String) : symbols (encode s) = symbolsOf s :=
  symbolsOnto_flatMap_encodeChar [] s.toList

theorem mapM_map_char {f : Symbol → Option Char} (hf : ∀ c, f (.char c) = some c)
    (cs : List Char) : (cs.map .char).mapM f = some cs := by
  induction cs with
  | nil => rfl
  | cons c cs ih =>
    rw [List.map_cons, List.mapM_cons, hf, ih]
    rfl

theorem decode?_encode (s : String) : decode? (encode s) = some s := by
  rw [decode?, symbols_encode]
  refine (congrArg (Option.map String.ofList) (mapM_map_char ?_ s.toList)).trans
    (congrArg some String.ofList_toList)
  intro c
  rfl

end RepairLedger.Text
