/-
Texts and their bytes. What is spelled out as bytes is read back
(`decode?_encode`), and reading goes from left to right: bytes that spell a
text keep their text, whatever follows (`decode?_append`).

A character takes one to four bytes. The cases of the reader are the cases
of the speller, so there is one lemma for each width, and all that is left
of each is arithmetic on the number of the character.

No other bytes are read as a text than those that spell it
(`decode?_eq_some_iff`): what the reader asks of the bytes of a character
leaves out the surrogates and every spelling that is too long.

Only the first 128 characters have bytes below 0x80, and each of them is its
own byte, so a text without control characters has no byte that is one
(`no_control_encode`).
-/
import TaskLedger.Text.Utf8

namespace TaskLedger.Text.Utf8

-- ================================================================ bytes

/-- The byte of a small number. -/
theorem toNat_byte {n : Nat} (h : n < 256) : (UInt8.ofNat n).toNat = n := by
  rw [UInt8.toNat_ofNat']
  exact Nat.mod_eq_of_lt h

/-- Six bits behind the mark of a byte that goes on with a character. -/
theorem isTail_byte {n : Nat} (h : n < 64) :
    isTail (UInt8.ofNat (n + 128)) = true
      ∧ tailBits (UInt8.ofNat (n + 128)) = n := by
  have byte := toNat_byte (n := n + 128) (by omega)
  unfold isTail tailBits
  simp only [UInt8.le_iff_toNat_le, byte, Bool.and_eq_true,
    decide_eq_true_eq, UInt8.reduceToNat]
  omega

-- ============================================================ characters

theorem two?_bytes {v : Nat} (low : 0x80 ≤ v) (high : v ≤ 0x7ff) :
    two? (UInt8.ofNat (v / 64 % 32 + 192)) (UInt8.ofNat (v % 64 + 128))
      = some (Char.ofNat v) := by
  obtain ⟨tail, bits⟩ := isTail_byte (n := v % 64) (by omega)
  have lead := toNat_byte (n := v / 64 % 32 + 192) (by omega)
  unfold two?
  rw [if_pos]
  · rw [lead, bits]
    congr 2
    omega
  · simp only [UInt8.le_iff_toNat_le, lead, tail, Bool.and_eq_true,
      decide_eq_true_eq, UInt8.reduceToNat, and_true]
    omega

/-- No character is a surrogate, so the second byte is in the range that the
first one asks for. -/
theorem three?_bytes {v : Nat} (low : 0x800 ≤ v) (high : v ≤ 0xffff)
    (valid : v < 0xd800 ∨ 0xdfff < v) :
    three? (UInt8.ofNat (v / 4096 % 16 + 224))
        (UInt8.ofNat (v / 64 % 64 + 128)) (UInt8.ofNat (v % 64 + 128))
      = some (Char.ofNat v) := by
  obtain ⟨tail, bits⟩ := isTail_byte (n := v % 64) (by omega)
  obtain ⟨tail', bits'⟩ := isTail_byte (n := v / 64 % 64) (by omega)
  have lead := toNat_byte (n := v / 4096 % 16 + 224) (by omega)
  have next := toNat_byte (n := v / 64 % 64 + 128) (by omega)
  unfold three?
  rw [if_pos]
  · rw [lead, bits, bits']
    congr 2
    omega
  · rw [tail, Bool.and_true]
    simp only [beq_iff_eq, ← UInt8.toNat_inj, UInt8.le_iff_toNat_le, lead,
      next, tail', Bool.and_eq_true, decide_eq_true_eq,
      Bool.ite_eq_true_distrib, UInt8.reduceToNat, and_true]
    split
    · omega
    · split <;> omega

theorem four?_bytes {v : Nat} (low : 0x10000 ≤ v) (high : v ≤ 0x10ffff) :
    four? (UInt8.ofNat (v / 262144 % 8 + 240))
        (UInt8.ofNat (v / 4096 % 64 + 128))
        (UInt8.ofNat (v / 64 % 64 + 128)) (UInt8.ofNat (v % 64 + 128))
      = some (Char.ofNat v) := by
  obtain ⟨tail, bits⟩ := isTail_byte (n := v % 64) (by omega)
  obtain ⟨tail', bits'⟩ := isTail_byte (n := v / 64 % 64) (by omega)
  obtain ⟨tail'', bits''⟩ := isTail_byte (n := v / 4096 % 64) (by omega)
  have lead := toNat_byte (n := v / 262144 % 8 + 240) (by omega)
  have next := toNat_byte (n := v / 4096 % 64 + 128) (by omega)
  unfold four?
  rw [if_pos]
  · rw [lead, bits, bits', bits'']
    congr 2
    omega
  · rw [tail, tail', Bool.and_true, Bool.and_true]
    simp only [beq_iff_eq, ← UInt8.toNat_inj, UInt8.le_iff_toNat_le, lead,
      next, tail'', Bool.and_eq_true, decide_eq_true_eq,
      Bool.ite_eq_true_distrib, UInt8.reduceToNat, and_true]
    split
    · omega
    · split <;> omega

/-- A byte is compared by its number. -/
theorem byte_lt {n : Nat} (h : n < 256) (b : UInt8) :
    UInt8.ofNat n < b ↔ n < b.toNat := by
  rw [UInt8.lt_iff_toNat_lt, toNat_byte h]

/-- The bytes of a character are read as that character. -/
theorem decode?_char (c : Char) (rest : List UInt8) :
    decode? (String.utf8EncodeChar c ++ rest)
      = (decode? rest).map (c :: ·) := by
  have valid : c.val.toNat < 0xd800
      ∨ 0xdfff < c.val.toNat ∧ c.val.toNat < 0x110000 := c.valid
  have back : Char.ofNat c.val.toNat = c := Char.ofNat_toNat c
  unfold String.utf8EncodeChar
  generalize c.val.toNat = v at valid back
  dsimp only
  split
  · next one =>
    have small : v < 128 := by omega
    simp only [List.cons_append, List.nil_append, decode?.eq_def (_ :: rest),
      byte_lt (show v < 256 by omega), UInt8.reduceToNat, if_pos small]
    rw [toNat_byte (by omega), back]
  · split
    · next two =>
      have lead : v / 64 % 32 + 192 < 256 := by omega
      simp only [List.cons_append, List.nil_append]
      rw [decode?.eq_def]
      dsimp only
      rw [two?_bytes (by omega) two, back]
      simp only [byte_lt lead, UInt8.reduceToNat]
      rw [if_neg (by omega), if_pos (by omega)]
      rfl
    · split
      · next three =>
        have lead : v / 4096 % 16 + 224 < 256 := by omega
        simp only [List.cons_append, List.nil_append]
        rw [decode?.eq_def]
        dsimp only
        rw [three?_bytes (by omega) three (by omega), back]
        simp only [byte_lt lead, UInt8.reduceToNat]
        rw [if_neg (by omega), if_neg (by omega), if_pos (by omega)]
        rfl
      · have lead : v / 262144 % 8 + 240 < 256 := by omega
        simp only [List.cons_append, List.nil_append]
        rw [decode?.eq_def]
        dsimp only
        rw [four?_bytes (by omega) (by omega), back]
        simp only [byte_lt lead, UInt8.reduceToNat]
        rw [if_neg (by omega), if_neg (by omega), if_neg (by omega)]
        rfl

-- ================================================================ texts

theorem encode_cons (c : Char) (s : List Char) :
    encode (c :: s) = String.utf8EncodeChar c ++ encode s :=
  rfl

theorem encode_append (s t : List Char) :
    encode (s ++ t) = encode s ++ encode t :=
  List.flatMap_append

/-- A text that is spelled out is read back. -/
theorem decode?_encode (s : List Char) : decode? (encode s) = some s := by
  induction s with
  | nil => rfl
  | cons c s ih => rw [encode_cons, decode?_char, ih]; rfl

/-- A character in front of a text that keeps its place. -/
theorem push_append {c : Option Char} {rest rest' more : Option (List Char)}
    {s : List Char} (h : (c.bind fun x => rest.map (x :: ·)) = some s)
    (keeps : ∀ t, rest = some t → rest' = more.map (t ++ ·)) :
    (c.bind fun x => rest'.map (x :: ·)) = more.map (s ++ ·) := by
  obtain ⟨x, rfl, h⟩ := Option.bind_eq_some_iff.mp h
  obtain ⟨t, ht, rfl⟩ := Option.map_eq_some_iff.mp h
  rw [keeps t ht]
  cases more <;> rfl

/-- Bytes that spell a text keep it, whatever follows. -/
theorem decode?_append {bytes : List UInt8} {s : List Char}
    (h : decode? bytes = some s) (more : List UInt8) :
    decode? (bytes ++ more) = (decode? more).map (s ++ ·) := by
  -- a text ends where a character does, so only the branches that have all
  -- bytes of a character are met
  fun_induction decode? bytes generalizing s with
  | case1 =>
      obtain rfl := Option.some.inj h
      rw [List.nil_append]
      cases decode? more <;> rfl
  | case2 a r small ih =>
      rw [List.cons_append, decode?.eq_def]
      dsimp only
      rw [if_pos small]
      exact push_append (c := some (Char.ofNat a.toNat)) h fun t ht => ih ht
  | case3 | case5 | case7 => cases h
  | case4 a large b r two ih =>
      simp only [List.cons_append]
      rw [decode?.eq_def]
      dsimp only
      rw [if_neg large, if_pos two]
      exact push_append h fun t ht => ih ht
  | case6 a large b two c r three ih =>
      simp only [List.cons_append]
      rw [decode?.eq_def]
      dsimp only
      rw [if_neg large, if_neg two, if_pos three]
      exact push_append h fun t ht => ih ht
  | case8 a large b two c three d r ih =>
      simp only [List.cons_append]
      rw [decode?.eq_def]
      dsimp only
      rw [if_neg large, if_neg two, if_neg three]
      exact push_append h fun t ht => ih ht

/-- A byte below 0x80 is a character of its own, behind a text and behind
bytes that are none. -/
theorem decode?_snoc (bytes : List UInt8) {b : UInt8} (small : b < 0x80) :
    decode? (bytes ++ [b])
      = (decode? bytes).map (· ++ [Char.ofNat b.toNat]) := by
  -- it does not go on with a character that lacks a byte
  have tail : isTail b = false := by
    have low := UInt8.not_le.mpr small
    unfold isTail
    rw [decide_eq_false low, Bool.false_and]
  have push (c : Option Char) (rest : Option (List Char)) (s : List Char) :
      (c.bind fun x => (rest.map (· ++ s)).map (x :: ·))
        = (c.bind fun x => rest.map (x :: ·)).map (· ++ s) := by
    cases c <;> cases rest <;> rfl
  fun_induction decode? bytes with
  | case1 => rw [List.nil_append, decode?, if_pos small]; rfl
  | case2 a r first ih =>
      rw [List.cons_append, decode?.eq_def]
      dsimp only
      rw [if_pos first, ih]
      exact push (some _) (decode? r) _
  | case3 a large =>
      rw [List.cons_append, List.nil_append, decode?.eq_def]
      dsimp only
      rw [if_neg large]
      split
      · unfold two?
        rw [tail, Bool.and_false]
        rfl
      · rfl
  | case4 a large c r two ih =>
      simp only [List.cons_append]
      rw [decode?.eq_def]
      dsimp only
      rw [if_neg large, if_pos two, ih]
      exact push _ (decode? r) _
  | case5 a large c two =>
      simp only [List.cons_append, List.nil_append]
      rw [decode?.eq_def]
      dsimp only
      rw [if_neg large, if_neg two]
      split
      · unfold three?
        dsimp only
        rw [tail, Bool.and_false]
        rfl
      · rfl
  | case6 a large c two d r three ih =>
      simp only [List.cons_append]
      rw [decode?.eq_def]
      dsimp only
      rw [if_neg large, if_neg two, if_pos three, ih]
      exact push _ (decode? r) _
  | case7 a large c two d three =>
      simp only [List.cons_append, List.nil_append]
      rw [decode?.eq_def]
      dsimp only
      rw [if_neg large, if_neg two, if_neg three]
      unfold four?
      dsimp only
      rw [tail, Bool.and_false]
      rfl
  | case8 a large c two d three e r ih =>
      simp only [List.cons_append]
      rw [decode?.eq_def]
      dsimp only
      rw [if_neg large, if_neg two, if_neg three, ih]
      exact push _ (decode? r) _

/-- A byte of a character is the character itself or above 0x7f. -/
theorem mem_encodeChar {c : Char} {b : UInt8}
    (mem : b ∈ String.utf8EncodeChar c) :
    b.toNat = c.toNat ∨ 0x80 ≤ b.toNat := by
  have number : c.val.toNat = c.toNat := rfl
  unfold String.utf8EncodeChar at mem
  dsimp only at mem
  rw [number] at mem
  split at mem
  · obtain rfl := List.mem_singleton.mp mem
    exact .inl (toNat_byte (by omega))
  · refine .inr ?_
    -- each byte of a longer spelling carries a mark
    have marked {n : Nat} (small : n < 256) (mark : 0x80 ≤ n) :
        0x80 ≤ (UInt8.ofNat n).toNat := by
      rw [toNat_byte small]
      exact mark
    split at mem
    · simp only [List.mem_cons, List.not_mem_nil, or_false] at mem
      rcases mem with rfl | rfl <;> exact marked (by omega) (by omega)
    · split at mem
      · simp only [List.mem_cons, List.not_mem_nil, or_false] at mem
        rcases mem with rfl | rfl | rfl <;>
          exact marked (by omega) (by omega)
      · simp only [List.mem_cons, List.not_mem_nil, or_false] at mem
        rcases mem with rfl | rfl | rfl | rfl <;>
          exact marked (by omega) (by omega)

/-- A text without control characters has no byte that is one. -/
theorem no_control_encode {s : List Char} (h : ∀ c ∈ s, 0x20 ≤ c.toNat)
    {b : UInt8} (mem : b ∈ encode s) : 0x20 ≤ b.toNat := by
  obtain ⟨c, hc, mem⟩ := List.mem_flatMap.mp mem
  have low := h c hc
  rcases mem_encodeChar mem with same | high
  · omega
  · omega

-- ======================================================== the way back

/-- A byte with the mark of one that goes on is the mark and six bits. -/
theorem toNat_tail {b : UInt8} (tail : isTail b = true) :
    b.toNat = tailBits b + 128 ∧ tailBits b < 64 := by
  unfold isTail at tail
  unfold tailBits
  simp only [UInt8.le_iff_toNat_le, Bool.and_eq_true, decide_eq_true_eq,
    UInt8.reduceToNat] at tail
  omega

/-- A number below the surrogates, or above them and in range, is that of
its character. -/
theorem val_ofNat {n : Nat}
    (valid : n < 0xd800 ∨ 0xdfff < n ∧ n < 0x110000) :
    (Char.ofNat n).val.toNat = n := by
  unfold Char.ofNat
  rw [dif_pos valid]
  rfl

theorem bytes_of_two? {a b : UInt8} {c : Char} (h : two? a b = some c) :
    String.utf8EncodeChar c = [a, b] := by
  unfold two? at h
  obtain ⟨lead, h⟩ := Option.ite_none_right_eq_some.mp h
  obtain rfl := Option.some.inj h
  simp only [UInt8.le_iff_toNat_le, Bool.and_eq_true, decide_eq_true_eq,
    UInt8.reduceToNat] at lead
  obtain ⟨hb, bits⟩ := toNat_tail lead.2
  unfold String.utf8EncodeChar
  rw [val_ofNat (by omega)]
  dsimp only
  rw [if_neg (by omega), if_pos (by omega)]
  simp only [List.cons.injEq, ← UInt8.toNat_inj, and_true]
  rw [toNat_byte (by omega), toNat_byte (by omega)]
  omega

/-- The second byte is in the range that the first one asks for, so the
number is no surrogate and no shorter spelling would do. -/
theorem bytes_of_three? {a b c : UInt8} {x : Char}
    (h : three? a b c = some x) : String.utf8EncodeChar x = [a, b, c] := by
  unfold three? at h
  dsimp only at h
  obtain ⟨lead, h⟩ := Option.ite_none_right_eq_some.mp h
  obtain rfl := Option.some.inj h
  rw [Bool.and_eq_true] at lead
  obtain ⟨hc, bits⟩ := toNat_tail lead.2
  have bounds : 224 ≤ a.toNat ∧ a.toNat < 240
      ∧ b.toNat = tailBits b + 128 ∧ tailBits b < 64
      ∧ (a.toNat = 224 → 32 ≤ tailBits b)
      ∧ (a.toNat = 237 → tailBits b < 32) := by
    have range := lead.1
    unfold isTail at range
    unfold tailBits
    simp only [UInt8.le_iff_toNat_le, beq_iff_eq, ← UInt8.toNat_inj,
      Bool.and_eq_true, decide_eq_true_eq, Bool.ite_eq_true_distrib,
      UInt8.reduceToNat] at range
    split at range
    · omega
    · split at range <;> omega
  obtain ⟨low, high, hb, bits', first, surrogate⟩ := bounds
  unfold String.utf8EncodeChar
  rw [val_ofNat (by omega)]
  dsimp only
  rw [if_neg (by omega), if_neg (by omega), if_pos (by omega)]
  simp only [List.cons.injEq, ← UInt8.toNat_inj, and_true]
  rw [toNat_byte (by omega), toNat_byte (by omega), toNat_byte (by omega)]
  omega

theorem bytes_of_four? {a b c d : UInt8} {x : Char}
    (h : four? a b c d = some x) :
    String.utf8EncodeChar x = [a, b, c, d] := by
  unfold four? at h
  dsimp only at h
  obtain ⟨lead, h⟩ := Option.ite_none_right_eq_some.mp h
  obtain rfl := Option.some.inj h
  rw [Bool.and_eq_true, Bool.and_eq_true] at lead
  obtain ⟨hc, bits⟩ := toNat_tail lead.1.2
  obtain ⟨hd, bits'⟩ := toNat_tail lead.2
  have bounds : 240 ≤ a.toNat ∧ a.toNat < 245
      ∧ b.toNat = tailBits b + 128 ∧ tailBits b < 64
      ∧ (a.toNat = 240 → 16 ≤ tailBits b)
      ∧ (a.toNat = 244 → tailBits b < 16) := by
    have range := lead.1.1
    unfold isTail at range
    unfold tailBits
    simp only [UInt8.le_iff_toNat_le, beq_iff_eq, ← UInt8.toNat_inj,
      Bool.and_eq_true, decide_eq_true_eq, Bool.ite_eq_true_distrib,
      UInt8.reduceToNat] at range
    split at range
    · omega
    · split at range <;> omega
  obtain ⟨low, high, hb, bits'', first, last⟩ := bounds
  unfold String.utf8EncodeChar
  rw [val_ofNat (by omega)]
  dsimp only
  rw [if_neg (by omega), if_neg (by omega), if_neg (by omega)]
  simp only [List.cons.injEq, ← UInt8.toNat_inj, and_true]
  rw [toNat_byte (by omega), toNat_byte (by omega), toNat_byte (by omega),
    toNat_byte (by omega)]
  omega

theorem bytes_of_one {a : UInt8} (small : a < 0x80) :
    String.utf8EncodeChar (Char.ofNat a.toNat) = [a] := by
  have small : a.toNat < 128 := UInt8.lt_iff_toNat_lt.mp small
  unfold String.utf8EncodeChar
  rw [val_ofNat (by omega)]
  dsimp only
  rw [if_pos (by omega), UInt8.ofNat_toNat]

/-- Only the bytes that spell a text are read as that text. -/
theorem encode_of_decode? {bytes : List UInt8} {s : List Char}
    (h : decode? bytes = some s) : encode s = bytes := by
  -- a character in front whose bytes are known
  have front {c : Option Char} (here : List UInt8) {rest : List UInt8}
      {s : List Char}
      (h : (c.bind fun x => (decode? rest).map (x :: ·)) = some s)
      (spelt : ∀ x, c = some x → String.utf8EncodeChar x = here)
      (ih : ∀ {t}, decode? rest = some t → encode t = rest) :
      encode s = here ++ rest := by
    obtain ⟨x, hc, h⟩ := Option.bind_eq_some_iff.mp h
    obtain ⟨t, ht, rfl⟩ := Option.map_eq_some_iff.mp h
    rw [encode_cons, spelt x hc, ih ht]
  fun_induction decode? bytes generalizing s with
  | case1 =>
      obtain rfl := Option.some.inj h
      rfl
  | case2 a r small ih =>
      refine front (c := some (Char.ofNat a.toNat)) [a] h ?_ ih
      intro x hx
      obtain rfl := Option.some.inj hx
      exact bytes_of_one small
  | case3 | case5 | case7 => cases h
  | case4 a large b r two ih =>
      exact front [a, b] h (fun _ => bytes_of_two?) ih
  | case6 a large b two c r three ih =>
      exact front [a, b, c] h (fun _ => bytes_of_three?) ih
  | case8 a large b two c three d r ih =>
      exact front [a, b, c, d] h (fun _ => bytes_of_four?) ih

theorem decode?_eq_some_iff {bytes : List UInt8} {s : List Char} :
    decode? bytes = some s ↔ encode s = bytes :=
  ⟨encode_of_decode?, fun h => h ▸ decode?_encode s⟩

theorem string?_eq_some_iff {bytes : List UInt8} {s : String} :
    string? bytes = some s ↔ ofString s = bytes := by
  unfold string? ofString
  rw [Option.map_eq_some_iff]
  constructor
  · rintro ⟨cs, h, rfl⟩
    rw [String.toList_ofList]
    exact encode_of_decode? h
  · intro h
    exact ⟨s.toList, decode?_eq_some_iff.mpr h, String.ofList_toList⟩

end TaskLedger.Text.Utf8
