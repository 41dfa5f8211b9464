import RepairLedger.Proofs.Text.Utf8

/-!
# Bytes that encode no text

The symbols that bytes are read as hold all of the bytes (`Text.flatMap_bytes_symbols`).  So the
bytes that are decoded to a text are the bytes of this text (`Text.encode_of_decode?`).  Where a
stray run is replaced, the bytes of the text are others: they are the same if and only if the bytes
can be decoded strictly (`Text.encode_decodeLossy_iff`).

For a single character this is the other direction of `Text.symbolsOnto_encodeChar`: bytes that are
read as a character are the bytes of the character (`Text.encodeChar_of_lead`).
-/

namespace RepairLedger.Text

open Utf8

/-! ### The bytes of a character by their parts -/

section Parts

variable {n p x y z : Nat}

/-- The code of a character can be told from the character. -/
theorem toNat_ofNat (h : n < 0xD800 ∨ 0xDFFF < n ∧ n < 0x110000) : (Char.ofNat n).toNat = n := by
  have hvalid : n.isValidChar := h
  rw [Char.ofNat, dif_pos hvalid]
  rfl

theorem encodeChar_one (h : n ≤ 0x7F) : encodeChar (Char.ofNat n) = [UInt8.ofNat n] := by
  have hn : (Char.ofNat n).val.toNat = n := toNat_ofNat (by omega)
  unfold encodeChar String.utf8EncodeChar
  simp only [hn, if_pos h]

theorem encodeChar_two (h : 2 ≤ p) (h' : p < 0x20) (hx : x < 64) :
    encodeChar (Char.ofNat (p * 64 + x)) = [UInt8.ofNat (p + 0xC0), UInt8.ofNat (x + 0x80)] := by
  have hn : (Char.ofNat (p * 64 + x)).val.toNat = p * 64 + x := toNat_ofNat (by omega)
  have hp : (p * 64 + x) / 64 % 0x20 = p := by omega
  have hlast : (p * 64 + x) % 0x40 = x := by omega
  unfold encodeChar String.utf8EncodeChar
  simp only [hn, hp, hlast, if_neg (show ¬ p * 64 + x ≤ 0x7F by omega),
    if_pos (show p * 64 + x ≤ 0x7FF by omega)]

theorem encodeChar_three (h : 0x20 ≤ p * 64 + x) (h' : p < 0x10)
    (hs : p * 64 + x < 0x360 ∨ 0x380 ≤ p * 64 + x) (hx : x < 64) (hy : y < 64) :
    encodeChar (Char.ofNat ((p * 64 + x) * 64 + y)) =
      [UInt8.ofNat (p + 0xE0), UInt8.ofNat (x + 0x80), UInt8.ofNat (y + 0x80)] := by
  obtain ⟨n, hn⟩ : ∃ n, n = (p * 64 + x) * 64 + y := ⟨_, rfl⟩
  have hcode : (Char.ofNat n).val.toNat = n := toNat_ofNat (by omega)
  have hp : n / 4096 % 0x10 = p := by omega
  have hmiddle : n / 64 % 0x40 = x := by omega
  have hlast : n % 0x40 = y := by omega
  rw [← hn]
  unfold encodeChar String.utf8EncodeChar
  simp only [hcode, hp, hmiddle, hlast, if_neg (show ¬ n ≤ 0x7F by omega),
    if_neg (show ¬ n ≤ 0x7FF by omega), if_pos (show n ≤ 0xFFFF by omega)]

theorem encodeChar_four (h : 0x10 ≤ p * 64 + x) (h' : p * 64 + x < 0x110) (hx : x < 64)
    (hy : y < 64) (hz : z < 64) :
    encodeChar (Char.ofNat (((p * 64 + x) * 64 + y) * 64 + z)) =
      [UInt8.ofNat (p + 0xF0), UInt8.ofNat (x + 0x80), UInt8.ofNat (y + 0x80),
        UInt8.ofNat (z + 0x80)] := by
  obtain ⟨n, hn⟩ : ∃ n, n = ((p * 64 + x) * 64 + y) * 64 + z := ⟨_, rfl⟩
  have hcode : (Char.ofNat n).val.toNat = n := toNat_ofNat (by omega)
  have hp : n / 262144 % 0x08 = p := by omega
  have hsecond : n / 4096 % 0x40 = x := by omega
  have hthird : n / 64 % 0x40 = y := by omega
  have hlast : n % 0x40 = z := by omega
  rw [← hn]
  unfold encodeChar String.utf8EncodeChar
  simp only [hcode, hp, hsecond, hthird, hlast, if_neg (show ¬ n ≤ 0x7F by omega),
    if_neg (show ¬ n ≤ 0x7FF by omega), if_neg (show ¬ n ≤ 0xFFFF by omega)]

end Parts

/-! ### First bytes and those that follow -/

namespace Utf8

variable {payload code : Nat} {range : Range} {ranges : List Range} {bytes : Bytes}

/-- The bytes of the range add six bits to a payload, which come to a part of a code that is in the
bounds. -/
def Range.Fits (range : Range) (bound : Nat → Prop) : Prop :=
  0x80 ≤ range.first.toNat ∧ range.last.toNat ≤ 0xBF ∧
    ∀ x, range.first.toNat ≤ x + 0x80 → x + 0x80 ≤ range.last.toNat → bound x

/-- The first byte of a character, by the number of those that follow: its payload, and what they
may be. -/
inductive Lead : UInt8 → Nat → List Range → Prop
  | one {n : Nat} (h : n ≤ 0x7F) : Lead (UInt8.ofNat n) n []
  | two {p : Nat} (h : 2 ≤ p) (h' : p < 0x20) : Lead (UInt8.ofNat (p + 0xC0)) p [tail]
  | three {p : Nat} {range : Range} (h : p < 0x10)
      (hr : range.Fits fun x =>
        0x20 ≤ p * 64 + x ∧ (p * 64 + x < 0x360 ∨ 0x380 ≤ p * 64 + x)) :
    Lead (UInt8.ofNat (p + 0xE0)) p [range, tail]
  | four {p : Nat} {range : Range}
      (hr : range.Fits fun x => 0x10 ≤ p * 64 + x ∧ p * 64 + x < 0x110) :
    Lead (UInt8.ofNat (p + 0xF0)) p [range, tail, tail]

theorem lead_of_lead? {b : UInt8} (h : lead? b = some (payload, ranges)) :
    Lead b payload ranges := by
  have hb : b.toNat < 256 := b.toNat_lt
  obtain ⟨n, hn⟩ : ∃ n, n = b.toNat := ⟨_, rfl⟩
  obtain rfl : b = UInt8.ofNat n := by rw [hn, UInt8.ofNat_toNat]
  rw [← hn] at hb
  rw [lead?_ofNat hb] at h
  have hthree (range : Range) (p : Nat) (hp : n = p + 0xE0) (hp' : p < 0x10)
      (hr : range.Fits fun x =>
        0x20 ≤ p * 64 + x ∧ (p * 64 + x < 0x360 ∨ 0x380 ≤ p * 64 + x)) :
      Lead (UInt8.ofNat n) p [range, tail] := hp ▸ .three hp' hr
  have hfour (range : Range) (p : Nat) (hp : n = p + 0xF0)
      (hr : range.Fits fun x => 0x10 ≤ p * 64 + x ∧ p * 64 + x < 0x110) :
      Lead (UInt8.ofNat n) p [range, tail, tail] := hp ▸ .four hr
  split at h
  · obtain ⟨rfl, rfl⟩ := Prod.mk.inj (Option.some.inj h)
    exact .one ‹_›
  split at h
  · obtain ⟨rfl, rfl⟩ := Prod.mk.inj (Option.some.inj h)
    have := Lead.two (p := n - 0xC0) (by omega) (by omega)
    rwa [Nat.sub_add_cancel (by omega)] at this
  split at h
  · obtain ⟨rfl, rfl⟩ := Prod.mk.inj (Option.some.inj h)
    refine hthree _ 0 ‹_› (by omega) ⟨by decide, by decide, fun x h h' => ?_⟩
    simp only [UInt8.reduceToNat] at h h'
    omega
  split at h
  · obtain ⟨rfl, rfl⟩ := Prod.mk.inj (Option.some.inj h)
    refine hthree _ 13 ‹_› (by omega) ⟨by decide, by decide, fun x h h' => ?_⟩
    simp only [UInt8.reduceToNat] at h h'
    omega
  split at h
  · obtain ⟨rfl, rfl⟩ := Prod.mk.inj (Option.some.inj h)
    refine hthree _ (n - 0xE0) (by omega) (by omega) ⟨by decide, by decide, fun x h h' => ?_⟩
    simp only [tail, UInt8.reduceToNat] at h h'
    omega
  split at h
  · obtain ⟨rfl, rfl⟩ := Prod.mk.inj (Option.some.inj h)
    refine hfour _ 0 ‹_› ⟨by decide, by decide, fun x h h' => ?_⟩
    simp only [UInt8.reduceToNat] at h h'
    omega
  split at h
  · obtain ⟨rfl, rfl⟩ := Prod.mk.inj (Option.some.inj h)
    refine hfour _ 4 ‹_› ⟨by decide, by decide, fun x h h' => ?_⟩
    simp only [UInt8.reduceToNat] at h h'
    omega
  split at h
  · obtain ⟨rfl, rfl⟩ := Prod.mk.inj (Option.some.inj h)
    refine hfour _ (n - 0xF0) (by omega) ⟨by decide, by decide, fun x h h' => ?_⟩
    simp only [tail, UInt8.reduceToNat] at h h'
    omega
  · cases h

theorem fits_tail : tail.Fits fun _ => True :=
  ⟨by decide, by decide, fun _ _ _ => trivial⟩

/-- A character goes on with a byte that adds six bits to its code. -/
theorem exists_of_continuation {bound : Nat → Prop} (hr : range.Fits bound)
    (h : (continuation payload (range :: ranges) bytes).code? = some code) :
    ∃ x rest, x < 64 ∧ bound x ∧
      (continuation payload (range :: ranges) bytes).taken =
        UInt8.ofNat (x + 0x80) :: (continuation (payload * 64 + x) ranges rest).taken ∧
      (continuation (payload * 64 + x) ranges rest).code? = some code := by
  obtain ⟨hfirst, hlast, hbound⟩ := hr
  cases bytes with
  | nil => cases h
  | cons b rest =>
    rw [continuation] at h ⊢
    split at h
    · rename_i hb
      rw [if_pos hb]
      rw [Bool.and_eq_true, decide_eq_true_eq, decide_eq_true_eq, UInt8.le_iff_toNat_le,
        UInt8.le_iff_toNat_le] at hb
      have hx : b.toNat - 0x80 + 0x80 = b.toNat := Nat.sub_add_cancel (by omega)
      refine ⟨b.toNat - 0x80, rest, by omega, hbound _ (by omega) (by omega), ?_, h⟩
      rw [hx, UInt8.ofNat_toNat]
    · cases h

end Utf8

/-- **Bytes that are read as a character are the bytes of the character.** -/
theorem encodeChar_of_lead {b : UInt8} {payload code : Nat} {ranges : List Range} {bytes : Bytes}
    (hl : Lead b payload ranges) (h : (continuation payload ranges bytes).code? = some code) :
    encodeChar (Char.ofNat code) = b :: (continuation payload ranges bytes).taken := by
  -- After the last byte that is asked for, the payload is the code.
  have hdone {payload : Nat} {rest : Bytes} (h : (continuation payload [] rest).code? = some code) :
      payload = code ∧ (continuation payload [] rest).taken = [] := ⟨Option.some.inj h, rfl⟩
  cases hl with
  | one hn =>
    obtain ⟨rfl, ht⟩ := hdone h
    rw [encodeChar_one hn, ht]
  | two hp hp' =>
    obtain ⟨x, _, hx, -, ht, h⟩ := exists_of_continuation fits_tail h
    obtain ⟨rfl, ht'⟩ := hdone h
    rw [encodeChar_two hp hp' hx, ht, ht']
  | three hp hr =>
    obtain ⟨x, _, hx, ⟨hlow, hs⟩, ht, h⟩ := exists_of_continuation hr h
    obtain ⟨y, _, hy, -, ht', h⟩ := exists_of_continuation fits_tail h
    obtain ⟨rfl, ht''⟩ := hdone h
    rw [encodeChar_three hlow hp hs hx hy, ht, ht', ht'']
  | four hr =>
    obtain ⟨x, _, hx, ⟨hlow, hhigh⟩, ht, h⟩ := exists_of_continuation hr h
    obtain ⟨y, _, hy, -, ht', h⟩ := exists_of_continuation fits_tail h
    obtain ⟨z, _, hz, -, ht'', h⟩ := exists_of_continuation fits_tail h
    obtain ⟨rfl, ht'''⟩ := hdone h
    rw [encodeChar_four hlow hhigh hx hy hz, ht, ht', ht'', ht''']

/-! ### Texts -/

/-- The bytes that a symbol stands for. -/
def Symbol.bytes : Symbol → Bytes
  | .char c => encodeChar c
  | .stray run => run

theorem flatMap_bytes_symbolsOnto (done : List Symbol) (bytes : Bytes) :
    (symbolsOnto done bytes).flatMap Symbol.bytes =
      done.reverse.flatMap Symbol.bytes ++ bytes := by
  fun_induction symbolsOnto done bytes with
  | case1 done => rw [List.append_nil]
  | case2 done b bytes _ ih =>
    rw [ih, List.reverse_cons, List.flatMap_append, List.append_assoc]
    rfl
  | case3 done b bytes payload ranges hl next code hcode ih =>
    have hchar : Symbol.bytes (.char (Char.ofNat code)) = b :: next.taken :=
      encodeChar_of_lead (lead_of_lead? hl) hcode
    rw [ih, List.reverse_cons, List.flatMap_append, List.flatMap_singleton, hchar,
      List.append_assoc, List.cons_append, continuation_append]
  | case4 done b bytes payload ranges hl next hcode ih =>
    have hrun : Symbol.bytes (.stray (b :: next.taken)) = b :: next.taken := rfl
    rw [ih, List.reverse_cons, List.flatMap_append, List.flatMap_singleton, hrun,
      List.append_assoc, List.cons_append, continuation_append]

/-- **No byte is lost.** -/
theorem flatMap_bytes_symbols (bytes : Bytes) :
    (symbols bytes).flatMap Symbol.bytes = bytes :=
  flatMap_bytes_symbolsOnto [] bytes

theorem eq_map_char_of_mapM {f : Symbol → Option Char} (hc : ∀ c, f (.char c) = some c)
    (hs : ∀ run, f (.stray run) = none) {symbols : List Symbol} {cs : List Char}
    (h : symbols.mapM f = some cs) : symbols = cs.map .char := by
  induction symbols generalizing cs with
  | nil =>
    cases h
    rfl
  | cons symbol symbols ih =>
    rw [List.mapM_cons] at h
    obtain ⟨c, hsymbol, h⟩ := Option.bind_eq_some_iff.1 h
    obtain ⟨rest, hrest, h⟩ := Option.bind_eq_some_iff.1 h
    cases h
    cases symbol with
    | char c' =>
      rw [hc] at hsymbol
      cases hsymbol
      rw [ih hrest, List.map_cons]
    | stray run =>
      rw [hs] at hsymbol
      cases hsymbol

theorem symbols_of_decode? {bytes : Bytes} {s : String} (h : decode? bytes = some s) :
    symbols bytes = symbolsOf s := by
  obtain ⟨cs, hcs, rfl⟩ := Option.map_eq_some_iff.1 h
  rw [symbolsOf, String.toList_ofList]
  exact eq_map_char_of_mapM (fun _ => rfl) (fun _ => rfl) hcs

/-- Bytes that are decoded to a text are the bytes of this text. -/
theorem encode_of_decode? {bytes : Bytes} {s : String} (h : decode? bytes = some s) :
    encode s = bytes := by
  have hbytes := flatMap_bytes_symbols bytes
  rw [symbols_of_decode? h, symbolsOf, List.flatMap_map] at hbytes
  exact hbytes

/-- Where no byte is astray, nothing is replaced. -/
theorem decodeLossy_of_decode? {bytes : Bytes} {s : String} (h : decode? bytes = some s) :
    decodeLossy bytes = s := by
  rw [decodeLossy, symbols_of_decode? h, symbolsOf, List.map_map]
  exact (congrArg String.ofList (List.map_id' _)).trans String.ofList_toList

/-- **To decode bytes with replacements and to encode the text again gives the same bytes if and
only if nothing had to be replaced.** -/
theorem encode_decodeLossy_iff {bytes : Bytes} :
    encode (decodeLossy bytes) = bytes ↔ (decode? bytes).isSome := by
  constructor
  · intro h
    rw [← h, decode?_encode]
    rfl
  · intro h
    obtain ⟨s, hs⟩ := Option.isSome_iff_exists.1 h
    rw [decodeLossy_of_decode? hs, encode_of_decode? hs]

end RepairLedger.Text
