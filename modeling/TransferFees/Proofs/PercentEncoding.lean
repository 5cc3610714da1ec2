import TransferFees.Text.PercentEncoding

/-!
# Percent-encoding and back

Every text survives the way into a path segment and out of it: `decode` undoes `encode`
(`PercentEncoding.decode_append_encode`). There are two codes inside one another, and each is undone with
an arbitrary rest behind it, so that the inductions can go on: the octets of a character are read
back as the character (`Utf8.decodeFrom_encodeChar`), and a triple as its octet
(`octets_triple`). The decoder of UTF-8 narrows the range of a second octet after some first ones.
What it shuts out there are long forms and halves of characters, which no character is encoded as.
-/

namespace TransferFees.Text

namespace Utf8

theorem toNat_ofNat {n : Nat} (h : n < 0x100) : (UInt8.ofNat n).toNat = n :=
  UInt8.toNat_ofNat_of_lt h

section
variable {bits owed least greatest x : Nat} {rest : List UInt8}

/-- An octet below `0x80` is a character of its own. -/
theorem decodeFrom_ascii (h : x < 0x80) :
    decodeFrom none (UInt8.ofNat x :: rest) = Char.ofNat x :: decodeFrom none rest := by
  rw [decodeFrom, toNat_ofNat (by omega), begin, if_pos h]
  rfl

/-- A first octet of more opens a character and gives nothing yet. -/
theorem decodeFrom_first {p : Pending} (hx : 0x80 ≤ x) (hx' : x < 0x100)
    (h : Pending.ofFirst x = some p) :
    decodeFrom none (UInt8.ofNat x :: rest) = decodeFrom (some p) rest := by
  rw [decodeFrom, toNat_ofNat hx', begin, if_neg (Nat.not_lt.2 hx), h]
  rfl

/-- Six more bits are put behind those that are known, and from then on any continuation will do. -/
theorem push_continuation (bits owed least greatest x : Nat) :
    Pending.push ⟨bits, owed + 1, least, greatest⟩ (0x80 + x) =
      ⟨bits * 0x40 + x, owed, 0x80, 0xBF⟩ := by
  have hx : 0x80 + x - 0x80 = x := by omega
  unfold Pending.push
  simp only [hx]
  rw [Nat.add_sub_cancel]

/-- Amid a character a continuation within its bounds is taken in. -/
theorem decodeFrom_more (h : least ≤ 0x80 + x) (h' : 0x80 + x ≤ greatest) (hx : x < 0x40) :
    decodeFrom (some ⟨bits, owed + 2, least, greatest⟩) (UInt8.ofNat (0x80 + x) :: rest) =
      decodeFrom (some ⟨bits * 0x40 + x, owed + 1, 0x80, 0xBF⟩) rest := by
  have hb : (UInt8.ofNat (0x80 + x)).toNat = 0x80 + x := toNat_ofNat (by omega)
  have howed : ¬owed + 2 = 1 := by omega
  rw [decodeFrom]
  simp only [hb, h, h', and_self, if_true, howed, if_false]
  rw [push_continuation]

/-- The last continuation closes the character. -/
theorem decodeFrom_last (h : least ≤ 0x80 + x) (h' : 0x80 + x ≤ greatest) (hx : x < 0x40) :
    decodeFrom (some ⟨bits, 1, least, greatest⟩) (UInt8.ofNat (0x80 + x) :: rest) =
      Char.ofNat (bits * 0x40 + x) :: decodeFrom none rest := by
  have hb : (UInt8.ofNat (0x80 + x)).toNat = 0x80 + x := toNat_ofNat (by omega)
  rw [decodeFrom]
  simp only [hb, h, h', and_self, if_true]
  rw [push_continuation]

end

section
variable {n : Nat}

theorem Pending.ofFirst_two (h : 0x80 ≤ n) (h' : n < 0x800) :
    ofFirst (0xC0 + n / 0x40) = some ⟨n / 0x40, 1, 0x80, 0xBF⟩ := by
  rw [ofFirst, if_pos (by omega), Nat.add_sub_cancel_left]

/-- The narrow ranges after `0xE0` and `0xED` hold what comes next in a character. -/
theorem Pending.ofFirst_three (h : 0x800 ≤ n) (h' : n < 0x10000)
    (hscalar : n < 0xD800 ∨ 0xDFFF < n) :
    ∃ least greatest, ofFirst (0xE0 + n / 0x1000) = some ⟨n / 0x1000, 2, least, greatest⟩ ∧
      least ≤ 0x80 + n / 0x40 % 0x40 ∧ 0x80 + n / 0x40 % 0x40 ≤ greatest := by
  rw [ofFirst, if_neg (by omega)]
  by_cases hE0 : 0xE0 + n / 0x1000 = 0xE0
  · have hbits : n / 0x1000 = 0 := by omega
    rw [if_pos hE0, hbits]
    exact ⟨_, _, rfl, by omega, by omega⟩
  · rw [if_neg hE0]
    by_cases hED : 0xE0 + n / 0x1000 = 0xED
    · have hbits : n / 0x1000 = 0xD := by omega
      rw [if_pos hED, hbits]
      exact ⟨_, _, rfl, by omega, by omega⟩
    · rw [if_neg hED, if_pos (by omega), Nat.add_sub_cancel_left]
      exact ⟨_, _, rfl, by omega, by omega⟩

/-- The first of four promises three more. As with three, it is for some first octets that the
second has narrower bounds, and it keeps to them. -/
theorem Pending.ofFirst_four (h : 0x10000 ≤ n) (h' : n < 0x110000) :
    ∃ least greatest, ofFirst (0xF0 + n / 0x40000) = some ⟨n / 0x40000, 3, least, greatest⟩ ∧
      least ≤ 0x80 + n / 0x1000 % 0x40 ∧ 0x80 + n / 0x1000 % 0x40 ≤ greatest := by
  rw [ofFirst, if_neg (by omega), if_neg (by omega), if_neg (by omega), if_neg (by omega)]
  by_cases hF0 : 0xF0 + n / 0x40000 = 0xF0
  · have hbits : n / 0x40000 = 0 := by omega
    rw [if_pos hF0, hbits]
    exact ⟨_, _, rfl, by omega, by omega⟩
  · rw [if_neg hF0]
    by_cases hF4 : 0xF0 + n / 0x40000 = 0xF4
    · have hbits : n / 0x40000 = 4 := by omega
      rw [if_neg (by omega), if_pos hF4, hbits]
      exact ⟨_, _, rfl, by omega, by omega⟩
    · rw [if_pos (by omega), Nat.add_sub_cancel_left]
      exact ⟨_, _, rfl, by omega, by omega⟩

end

/-- **The octets of a character are read back as the character.** -/
theorem decodeFrom_encodeChar (c : Char) (rest : List UInt8) :
    decodeFrom none (encodeChar c ++ rest) = c :: decodeFrom none rest := by
  have hscalar : c.toNat < 0xD800 ∨ 0xDFFF < c.toNat ∧ c.toNat < 0x110000 := c.valid
  have hc : Char.ofNat c.toNat = c := Char.ofNat_toNat c
  rw [encodeChar]
  generalize c.toNat = n at hscalar hc
  -- one case for each number of octets; the bits that they carry make up `n`
  split
  · rename_i h
    rw [List.singleton_append, decodeFrom_ascii h, hc]
  · split
    · rename_i h h'
      have hfirst := Pending.ofFirst_two (Nat.not_lt.1 h) h'
      have hbits : n / 0x40 * 0x40 + n % 0x40 = n := by omega
      simp only [List.cons_append, List.nil_append]
      rw [decodeFrom_first (by omega) (by omega) hfirst,
        decodeFrom_last (by omega) (by omega) (by omega), hbits, hc]
    · split
      · rename_i h h' h''
        obtain ⟨least, greatest, hfirst, hleast, hgreatest⟩ :=
          Pending.ofFirst_three (Nat.not_lt.1 h') h'' (by omega)
        have hbits : (n / 0x1000 * 0x40 + n / 0x40 % 0x40) * 0x40 + n % 0x40 = n := by omega
        simp only [List.cons_append, List.nil_append]
        rw [decodeFrom_first (by omega) (by omega) hfirst,
          decodeFrom_more hleast hgreatest (by omega),
          decodeFrom_last (by omega) (by omega) (by omega), hbits, hc]
      · rename_i h h' h''
        obtain ⟨least, greatest, hfirst, hleast, hgreatest⟩ :=
          Pending.ofFirst_four (Nat.not_lt.1 h'') (by omega)
        have hbits : ((n / 0x40000 * 0x40 + n / 0x1000 % 0x40) * 0x40 + n / 0x40 % 0x40) * 0x40 +
            n % 0x40 = n := by omega
        simp only [List.cons_append, List.nil_append]
        rw [decodeFrom_first (by omega) (by omega) hfirst,
          decodeFrom_more hleast hgreatest (by omega),
          decodeFrom_more (by omega) (by omega) (by omega),
          decodeFrom_last (by omega) (by omega) (by omega), hbits, hc]

/-- **UTF-8 is undone.** -/
theorem decode_encode (cs : List Char) : decode (encode cs) = cs := by
  induction cs with
  | nil => rfl
  | cons c rest ih =>
      rw [encode, List.flatMap_cons, decode, decodeFrom_encodeChar]
      exact congrArg _ ih

end Utf8

namespace PercentEncoding

theorem hexValue?_hexDigit {n : Nat} (h : n < 16) : hexValue? (hexDigit n) = some n := by
  revert n
  decide

/-- A triple is read as its octet. -/
theorem octets_triple (b : UInt8) (rest : List Char) :
    octets (triple b ++ rest) = b :: octets rest := by
  have hb : b.toNat < 256 := b.toNat_lt
  have hvalue : 16 * (b.toNat / 16) + b.toNat % 16 = b.toNat := Nat.div_add_mod _ _
  simp only [triple, List.cons_append, List.nil_append]
  rw [octets, hexValue?_hexDigit (by omega), hexValue?_hexDigit (Nat.mod_lt _ (by decide))]
  simp only [hvalue, UInt8.ofNat_toNat]

/-- Encoded octets are read back as they were, whatever stands behind them. -/
theorem octets_triples (bs : List UInt8) (rest : List Char) :
    octets (bs.flatMap triple ++ rest) = bs ++ octets rest := by
  induction bs with
  | nil => rfl
  | cons b more ih =>
      rw [List.flatMap_cons, List.append_assoc, octets_triple, ih, List.cons_append]

theorem octets_cons {c : Char} (h : c ≠ '%') (rest : List Char) :
    octets (c :: rest) = Utf8.encodeChar c ++ octets rest := by
  rw [octets]
  rintro a b more rfl
  exact fun _ => h rfl

/-- Encoding leaves the octets as they are, as long as the sign that begins a triple is
encoded. -/
theorem octets_encodeExcept {keep : Char → Bool} (hkeep : keep '%' = false) (s : String)
    (rest : List Char) :
    octets ((encodeExcept keep s).toList ++ rest) = Utf8.encode s.toList ++ octets rest := by
  rw [encodeExcept, String.toList_ofList]
  induction s.toList with
  | nil => rfl
  | cons c more ih =>
      rw [List.flatMap_cons, Utf8.encode, List.flatMap_cons, List.append_assoc, List.append_assoc]
      split
      · rename_i hc
        have hne : c ≠ '%' := by
          rintro rfl
          rw [hkeep] at hc
          cases hc
        rw [List.singleton_append, octets_cons hne, ih]
        rfl
      · rw [octets_triples, ih]
        rfl

theorem octets_append {start : List Char} (h : '%' ∉ start) (rest : List Char) :
    octets (start ++ rest) = Utf8.encode start ++ octets rest := by
  induction start with
  | nil => rfl
  | cons c more ih =>
      simp only [List.mem_cons, not_or] at h
      obtain ⟨hc, hmore⟩ := h
      rw [List.cons_append, octets_cons (Ne.symm hc), ih hmore]
      simp [Utf8.encode]

/-- **A segment that is encoded behind a plain path is decoded again.** -/
theorem decode_append_encode {start : String} (h : '%' ∉ start.toList) (s : String) :
    decode (start ++ encode s) = start ++ s := by
  have hoctets : octets (start ++ encode s).toList = Utf8.encode (start ++ s).toList := by
    have hmark : isUnreserved '%' = false := rfl
    have hsegment := octets_encodeExcept hmark s []
    rw [List.append_nil, octets, List.append_nil] at hsegment
    rw [String.toList_append, octets_append h, encode, hsegment, String.toList_append]
    simp [Utf8.encode]
  rw [decode, hoctets, Utf8.decode_encode, String.ofList_toList]

theorem isUnreserved_hexDigit {n : Nat} (h : n < 16) : isUnreserved (hexDigit n) = true := by
  revert n
  decide

/-- An encoded segment holds nothing that has a meaning in a path, apart from the sign that begins
a triple. -/
theorem isUnreserved_of_mem_encode {s : String} {c : Char} (h : c ∈ (encode s).toList)
    (hc : c ≠ '%') : isUnreserved c = true := by
  rw [encode, encodeExcept, String.toList_ofList, List.mem_flatMap] at h
  obtain ⟨d, -, hd⟩ := h
  split at hd
  · rename_i hkept
    obtain rfl : c = d := List.mem_singleton.1 hd
    exact hkept
  · obtain ⟨b, -, hb⟩ := List.mem_flatMap.1 hd
    have hlt : b.toNat < 256 := b.toNat_lt
    simp only [triple, List.mem_cons, List.not_mem_nil, or_false, hc, false_or] at hb
    rcases hb with rfl | rfl
    · exact isUnreserved_hexDigit (by omega)
    · exact isUnreserved_hexDigit (Nat.mod_lt _ (by decide))

end PercentEncoding

end TransferFees.Text
