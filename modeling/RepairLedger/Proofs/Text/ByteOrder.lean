import Mathlib.Data.String.Basic
import Mathlib.Tactic.SplitIfs
import RepairLedger.Text.Utf8

/-!
# The order of texts is the order of their bytes

Texts are compared by their characters, and characters by their codes.  Of two texts the greater one
has the greater bytes (`Text.encode_lt_encode`): of two characters the one with the greater code has
the greater bytes, at the first place where the bytes differ (`Text.encodeChar_append_lt`).
-/

namespace RepairLedger.Text

variable {n m : Nat} {xs ys : Bytes}

/-! ### Bytes of a character -/

theorem cons_lt_cons_ofNat (hm : m < 256) (hle : n ≤ m) (h : n = m → xs < ys) :
    UInt8.ofNat n :: xs < UInt8.ofNat m :: ys := by
  rw [List.cons_lt_cons_iff, UInt8.lt_iff_toNat_lt, UInt8.toNat_ofNat_of_lt' (hle.trans_lt hm),
    UInt8.toNat_ofNat_of_lt' hm]
  rcases hle.lt_or_eq with hlt | heq
  · exact .inl hlt
  · exact .inr ⟨congrArg UInt8.ofNat heq, h heq⟩

/-- Of two codes that differ in the last six bits only, the last bytes decide. -/
theorem last_lt_last (h : n < m) (hd : n / 64 = m / 64) :
    UInt8.ofNat (n % 64 + 0x80) :: xs < UInt8.ofNat (m % 64 + 0x80) :: ys :=
  cons_lt_cons_ofNat (by omega) (by omega) fun heq => absurd heq (by omega)

theorem lastTwo_lt_lastTwo (h : n < m) (hd : n / 4096 = m / 4096) :
    UInt8.ofNat (n / 64 % 64 + 0x80) :: UInt8.ofNat (n % 64 + 0x80) :: xs <
      UInt8.ofNat (m / 64 % 64 + 0x80) :: UInt8.ofNat (m % 64 + 0x80) :: ys :=
  cons_lt_cons_ofNat (by omega) (by omega) fun _ => last_lt_last h (by omega)

theorem lastThree_lt_lastThree (h : n < m) (hd : n / 262144 = m / 262144) :
    UInt8.ofNat (n / 4096 % 64 + 0x80) :: UInt8.ofNat (n / 64 % 64 + 0x80) ::
        UInt8.ofNat (n % 64 + 0x80) :: xs <
      UInt8.ofNat (m / 4096 % 64 + 0x80) :: UInt8.ofNat (m / 64 % 64 + 0x80) ::
        UInt8.ofNat (m % 64 + 0x80) :: ys :=
  cons_lt_cons_ofNat (by omega) (by omega) fun _ => lastTwo_lt_lastTwo h (by omega)

/-- Whatever follows, the bytes of a greater character are greater. -/
theorem encodeChar_append_lt {c d : Char} (h : c < d) (xs ys : Bytes) :
    encodeChar c ++ xs < encodeChar d ++ ys := by
  obtain ⟨n, hn⟩ : ∃ n, n = c.val.toNat := ⟨_, rfl⟩
  obtain ⟨m, hm⟩ : ∃ m, m = d.val.toNat := ⟨_, rfl⟩
  have hlt : n < m := by
    rw [hn, hm]
    exact h
  have hbound : m < 0x110000 := by
    have : d.val.toNat < 0xD800 ∨ 0xDFFF < d.val.toNat ∧ d.val.toNat < 0x110000 := d.valid
    omega
  unfold encodeChar String.utf8EncodeChar
  rw [← hn, ← hm]
  dsimp only
  split_ifs
  -- If one character has more bytes than the other, or there is only one, the first bytes differ.
  all_goals try exact cons_lt_cons_ofNat (by omega) (by omega) fun heq => absurd heq (by omega)
  · exact cons_lt_cons_ofNat (by omega) (by omega) fun _ => last_lt_last hlt (by omega)
  · exact cons_lt_cons_ofNat (by omega) (by omega) fun _ => lastTwo_lt_lastTwo hlt (by omega)
  · exact cons_lt_cons_ofNat (by omega) (by omega) fun _ => lastThree_lt_lastThree hlt (by omega)

/-! ### Texts -/

theorem flatMap_encodeChar_lt {cs ds : List Char} (h : cs < ds) :
    cs.flatMap encodeChar < ds.flatMap encodeChar := by
  induction cs generalizing ds with
  | nil =>
    cases ds with
    | nil => exact absurd h (List.not_lt_nil _)
    | cons d ds =>
      obtain ⟨b, bs, hd⟩ := List.exists_cons_of_ne_nil (String.utf8EncodeChar_ne_nil (c := d))
      rw [List.flatMap_cons, encodeChar, hd]
      exact List.nil_lt_cons b _
  | cons c cs ih =>
    cases ds with
    | nil => exact absurd h (List.not_lt_nil _)
    | cons d ds =>
      rw [List.flatMap_cons, List.flatMap_cons]
      rcases List.cons_lt_cons_iff.1 h with hlt | ⟨rfl, hrest⟩
      · exact encodeChar_append_lt hlt _ _
      · exact List.append_left_lt (ih hrest)

/-- **Texts have the order of their bytes.** -/
theorem encode_lt_encode {s t : String} (h : s < t) : encode s < encode t :=
  flatMap_encodeChar_lt (String.lt_iff_toList_lt.1 h)

end RepairLedger.Text
