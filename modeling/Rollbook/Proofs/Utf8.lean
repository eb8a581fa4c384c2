import Rollbook.Text.Utf8
/-
  Rollbook.Proofs.Utf8 — what was encoded is read back.

  A character is one to four bytes, and the first of them says how many follow and in what
  range the next one is. For each length the bytes that encode a character stay in these
  ranges, since no character is a surrogate or beyond the last code point, and their bits
  put together are the character again (`pieces_encodeChar`). So bytes that encode a text
  are cut into its characters and nothing else (`pieces_encode`), and both ways of reading
  bytes answer the text (`decode?_encode`, `decodeLossy_encode`).

  Of two characters the one with the smaller code point also has the smaller bytes, so texts
  are in the order of their bytes when they are in the order of their characters
  (`encode_lt_iff`).
-/

namespace Rollbook.Text.Utf8

variable {b : UInt8} {bytes : List UInt8}

/-! ## One byte -/

theorem piecesFrom_ascii (h : b.toNat < 128) :
    piecesFrom none (b :: bytes) = .char (Char.ofNat b.toNat) :: pieces bytes := by
  have hstart : start b.toNat = ([.char (Char.ofNat b.toNat)], none) := if_pos h
  simp only [piecesFrom, step, hstart]
  rfl

theorem piecesFrom_lead {due low high : Nat} (h : 128 ≤ b.toNat) (hlead : lead b.toNat = some (due, low, high)) :
    piecesFrom none (b :: bytes) = piecesFrom (some ⟨leadBits b.toNat due, 1, due, low, high⟩) bytes := by
  have hstart : start b.toNat = ([], some ⟨leadBits b.toNat due, 1, due, low, high⟩) := by
    rw [start, if_neg (by omega), hlead]
  simp only [piecesFrom, step, hstart]
  rfl

theorem piecesFrom_more {p : Pending} (h : p.low ≤ b.toNat ∧ b.toNat ≤ p.high) (hdue : p.due ≠ 1) :
    piecesFrom (some p) (b :: bytes) =
      piecesFrom (some ⟨p.value * 64 + b.toNat % 64, p.read + 1, p.due - 1, 0x80, 0xBF⟩) bytes := by
  simp only [piecesFrom, step, if_pos h, if_neg hdue]
  rfl

theorem piecesFrom_last {p : Pending} (h : p.low ≤ b.toNat ∧ b.toNat ≤ p.high) (hdue : p.due = 1) :
    piecesFrom (some p) (b :: bytes) = .char (Char.ofNat (p.value * 64 + b.toNat % 64)) :: pieces bytes := by
  simp only [piecesFrom, step, if_pos h, if_pos hdue]
  rfl

/-! ## One character -/

theorem toNat_ofNat {n : Nat} (h : n < 256) : (UInt8.ofNat n).toNat = n := by
  rw [UInt8.toNat_ofNat']
  omega

theorem pieces_two {v : Nat} (hlow : 0x80 ≤ v) (hhigh : v < 0x800) :
    pieces (UInt8.ofNat (v / 64 % 32 + 192) :: UInt8.ofNat (v % 64 + 128) :: bytes) =
      .char (Char.ofNat v) :: pieces bytes := by
  have hfirst := toNat_ofNat (n := v / 64 % 32 + 192) (by omega)
  have hsecond := toNat_ofNat (n := v % 64 + 128) (by omega)
  have hlead : lead (v / 64 % 32 + 192) = some (1, 0x80, 0xBF) := if_pos (by omega)
  have hbits : leadBits (v / 64 % 32 + 192) 1 = v / 64 := by
    show (v / 64 % 32 + 192) % 32 = _
    omega
  have hvalue : v / 64 * 64 + (v % 64 + 128) % 64 = v := by omega
  rw [pieces, piecesFrom_lead (by omega) (by rw [hfirst]; exact hlead), hfirst, hbits,
    piecesFrom_last (by rw [hsecond]; dsimp only; omega) rfl, hsecond]
  dsimp only
  rw [hvalue]

/-- What the first byte of three stands for; that of the smallest ones bounds the next byte from below, that before the
    surrogates from above. -/
theorem lead_three {n : Nat} (h : n < 16) : ∃ low high, lead (n + 224) = some (2, low, high) ∧
    low = (if n = 0 then 0xA0 else 0x80) ∧ high = (if n = 13 then 0x9F else 0xBF) := by
  unfold lead
  by_cases hzero : n = 0
  · exact ⟨0xA0, 0xBF, by subst hzero; rfl, by rw [if_pos hzero], by rw [if_neg (by omega)]⟩
  by_cases hthirteen : n = 13
  · exact ⟨0x80, 0x9F, by subst hthirteen; rfl, by rw [if_neg hzero], by rw [if_pos hthirteen]⟩
  · rw [if_neg (by omega), if_neg (by omega), if_neg (by omega), if_pos (by omega), if_neg hzero, if_neg hthirteen]
    exact ⟨0x80, 0xBF, rfl, rfl, rfl⟩

theorem pieces_three {v : Nat} (hlow : 0x800 ≤ v) (hhigh : v < 0x10000) (hvalid : v < 0xD800 ∨ 0xDFFF < v) :
    pieces (UInt8.ofNat (v / 4096 % 16 + 224) :: UInt8.ofNat (v / 64 % 64 + 128) :: UInt8.ofNat (v % 64 + 128) ::
      bytes) = .char (Char.ofNat v) :: pieces bytes := by
  have hfirst := toNat_ofNat (n := v / 4096 % 16 + 224) (by omega)
  have hsecond := toNat_ofNat (n := v / 64 % 64 + 128) (by omega)
  have hthird := toNat_ofNat (n := v % 64 + 128) (by omega)
  obtain ⟨low, high, hlead, hleast, hmost⟩ := lead_three (n := v / 4096 % 16) (by omega)
  have hrange : low ≤ v / 64 % 64 + 128 ∧ v / 64 % 64 + 128 ≤ high := by
    rw [hleast, hmost]
    split <;> split <;> omega
  have hbits : leadBits (v / 4096 % 16 + 224) 2 = v / 4096 := by
    show (v / 4096 % 16 + 224) % 16 = _
    omega
  have hvalue : (v / 4096 * 64 + (v / 64 % 64 + 128) % 64) * 64 + (v % 64 + 128) % 64 = v := by omega
  rw [pieces, piecesFrom_lead (by omega) (by rw [hfirst]; exact hlead), hfirst, hbits,
    piecesFrom_more (by rw [hsecond]; exact hrange) (by simp), hsecond,
    piecesFrom_last (by rw [hthird]; dsimp only; omega) rfl, hthird]
  dsimp only
  rw [hvalue]

theorem lead_four {n : Nat} (h : n < 5) : ∃ low high, lead (n + 240) = some (3, low, high) ∧
    low = (if n = 0 then 0x90 else 0x80) ∧ high = (if n = 4 then 0x8F else 0xBF) := by
  unfold lead
  by_cases hzero : n = 0
  · exact ⟨0x90, 0xBF, by subst hzero; rfl, by rw [if_pos hzero], by rw [if_neg (by omega)]⟩
  by_cases hfour : n = 4
  · exact ⟨0x80, 0x8F, by subst hfour; rfl, by rw [if_neg hzero], by rw [if_pos hfour]⟩
  · rw [if_neg (by omega), if_neg (by omega), if_neg (by omega), if_neg (by omega), if_neg (by omega),
      if_pos (by omega), if_neg hzero, if_neg hfour]
    exact ⟨0x80, 0xBF, rfl, rfl, rfl⟩

theorem pieces_four {v : Nat} (hlow : 0x10000 ≤ v) (hhigh : v < 0x110000) :
    pieces (UInt8.ofNat (v / 262144 % 8 + 240) :: UInt8.ofNat (v / 4096 % 64 + 128) ::
      UInt8.ofNat (v / 64 % 64 + 128) :: UInt8.ofNat (v % 64 + 128) :: bytes) =
      .char (Char.ofNat v) :: pieces bytes := by
  have hfirst := toNat_ofNat (n := v / 262144 % 8 + 240) (by omega)
  have hsecond := toNat_ofNat (n := v / 4096 % 64 + 128) (by omega)
  have hthird := toNat_ofNat (n := v / 64 % 64 + 128) (by omega)
  have hfourth := toNat_ofNat (n := v % 64 + 128) (by omega)
  obtain ⟨low, high, hlead, hleast, hmost⟩ := lead_four (n := v / 262144 % 8) (by omega)
  have hrange : low ≤ v / 4096 % 64 + 128 ∧ v / 4096 % 64 + 128 ≤ high := by
    rw [hleast, hmost]
    split <;> split <;> omega
  have hbits : leadBits (v / 262144 % 8 + 240) 3 = v / 262144 := by
    show (v / 262144 % 8 + 240) % 8 = _
    omega
  have hvalue : ((v / 262144 * 64 + (v / 4096 % 64 + 128) % 64) * 64 + (v / 64 % 64 + 128) % 64) * 64 +
      (v % 64 + 128) % 64 = v := by omega
  rw [pieces, piecesFrom_lead (by omega) (by rw [hfirst]; exact hlead), hfirst, hbits,
    piecesFrom_more (by rw [hsecond]; exact hrange) (by simp), hsecond,
    piecesFrom_more (by rw [hthird]; dsimp only; omega) (by simp), hthird,
    piecesFrom_last (by rw [hfourth]; dsimp only; omega) rfl, hfourth]
  dsimp only
  rw [hvalue]

theorem pieces_encodeChar (c : Char) : pieces (String.utf8EncodeChar c ++ bytes) = .char c :: pieces bytes := by
  have hchar : Char.ofNat c.val.toNat = c := Char.ofNat_toNat c
  have hvalid : c.val.toNat < 0xD800 ∨ 0xDFFF < c.val.toNat ∧ c.val.toNat < 0x110000 := c.valid
  have hcode : pieces (String.utf8EncodeChar c ++ bytes) = .char (Char.ofNat c.val.toNat) :: pieces bytes := by
    unfold String.utf8EncodeChar
    dsimp only
    generalize c.val.toNat = v at hvalid
    split
    · have hbyte := toNat_ofNat (n := v) (by omega)
      rw [List.singleton_append, pieces, piecesFrom_ascii (by omega), hbyte]
    split
    · exact pieces_two (by omega) (by omega)
    split
    · exact pieces_three (by omega) (by omega) (by omega)
    · exact pieces_four (by omega) (by omega)
  rw [hcode, hchar]

/-! ## Texts -/

theorem pieces_encode (cs : List Char) : pieces (encode cs) = cs.map .char := by
  induction cs with
  | nil => rfl
  | cons c cs ih =>
    rw [encode, List.flatMap_cons, pieces_encodeChar, List.map_cons, ← ih]
    rfl

theorem textFrom_char (index : Nat) (done cs : List Char) :
    textFrom index done (cs.map .char) = .ok (done.reverse ++ cs) := by
  induction cs generalizing index done with
  | nil => simp [textFrom]
  | cons c cs ih => rw [List.map_cons, textFrom, ih, List.reverse_cons, List.append_assoc, List.singleton_append]

theorem decode?_encode (cs : List Char) : decode? (encode cs) = .ok cs := by
  rw [decode?, pieces_encode, textFrom_char, List.reverse_nil, List.nil_append]

theorem decodeLossy_encode (cs : List Char) : decodeLossy (encode cs) = cs := by
  rw [decodeLossy, pieces_encode, List.map_map]
  exact List.map_id' cs

/-! ## Order -/

theorem ofNat_cons_lt {m n : Nat} (hm : m < 256) (hn : n < 256) {xs ys : List UInt8} :
    UInt8.ofNat m :: xs < UInt8.ofNat n :: ys ↔ m < n ∨ m = n ∧ xs < ys := by
  rw [List.cons_lt_cons_iff, UInt8.lt_iff_toNat_lt, ← UInt8.toNat_inj, toNat_ofNat hm, toNat_ofNat hn]

/-- Of two characters the one with the smaller code point has the smaller bytes, whatever follows. -/
theorem encodeChar_append_lt {c d : Char} (h : c < d) (xs ys : List UInt8) :
    String.utf8EncodeChar c ++ xs < String.utf8EncodeChar d ++ ys := by
  have hlt : c.val.toNat < d.val.toNat := h
  have hvalid : d.val.toNat < 0xD800 ∨ 0xDFFF < d.val.toNat ∧ d.val.toNat < 0x110000 := d.valid
  unfold String.utf8EncodeChar
  dsimp only
  generalize c.val.toNat = m at hlt
  generalize d.val.toNat = n at hlt hvalid
  have hdiv {k : Nat} (hk : k < 0x110000) :
      k / 64 / 64 = k / 4096 ∧ k / 4096 / 64 = k / 262144 ∧ k / 262144 % 8 = k / 262144 :=
    ⟨Nat.div_div_eq_div_mul .., Nat.div_div_eq_div_mul .., Nat.mod_eq_of_lt (by omega)⟩
  have hdivm := hdiv (k := m) (by omega)
  have hdivn := hdiv (k := n) (by omega)
  -- the more bytes a character has, the larger is its first; of equally many bytes one is the larger
  repeat' split
  all_goals
    simp (disch := omega) only [List.cons_append, List.nil_append, ofNat_cons_lt]
    omega

theorem encode_lt {cs ds : List Char} (h : cs < ds) : encode cs < encode ds := by
  induction h with
  | @nil d ds =>
    cases hd : encode (d :: ds) with
    | nil =>
      have hread := decodeLossy_encode (d :: ds)
      rw [hd] at hread
      cases hread
    | cons b bs => exact .nil
  | rel h => exact encodeChar_append_lt h _ _
  | cons h ih => exact List.append_left_lt ih

/-- Texts are ordered by their bytes as they are by code point. -/
theorem encode_lt_iff {cs ds : List Char} : encode cs < encode ds ↔ cs < ds := by
  refine ⟨fun h => Decidable.byContradiction fun hnot => ?_, encode_lt⟩
  rcases List.le_iff_lt_or_eq.1 (List.not_lt.1 hnot) with hafter | heq
  · exact List.lt_asymm h (encode_lt hafter)
  · rw [heq] at h
    exact List.lt_irrefl _ h

end Rollbook.Text.Utf8
