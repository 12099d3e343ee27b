import DryRun.Text.Utf8

/-!
# Reading what was encoded

The scanner of UTF-8 looks at the front of a byte sequence only, and gives up on a sequence at
the first byte that is out of its range. Here it is shown to undo the encoding of characters:
each of the four lengths of a character has a lemma about the code point alone, in which the
ranges of `leadRange` are just what the arithmetic of the encoding yields. A text that was
encoded is therefore read back, whatever bytes follow it, broken ones included.

## Main results

* `scanChar_utf8EncodeChar`: the bytes of a character are read as this character.
* `decodeLossy_encode_append`: the bytes of a text are read as this text.
* `lineFeed_notMem_encode`: a line feed is found among the bytes of a text only if the text has
  one, so that texts can be split as bytes.
-/

namespace DryRun.Text

/-! ### First bytes -/

/-- The first bytes of sequences, by their numbers. -/
theorem leadRange_eq (b : UInt8) : leadRange b =
    if 0xC2 ≤ b.toNat ∧ b.toNat ≤ 0xDF then some (1, 0x80, 0xBF)
    else if b.toNat = 0xE0 then some (2, 0xA0, 0xBF)
    else if b.toNat = 0xED then some (2, 0x80, 0x9F)
    else if 0xE1 ≤ b.toNat ∧ b.toNat ≤ 0xEF then some (2, 0x80, 0xBF)
    else if b.toNat = 0xF0 then some (3, 0x90, 0xBF)
    else if 0xF1 ≤ b.toNat ∧ b.toNat ≤ 0xF3 then some (3, 0x80, 0xBF)
    else if b.toNat = 0xF4 then some (3, 0x80, 0x8F)
    else none := by
  simp only [leadRange, UInt8.le_iff_toNat_le, ← UInt8.toNat_inj]
  rfl

/-- The number of a byte that is given by one. -/
theorem toNat_byte {n : Nat} (h : n < 256) : (UInt8.ofNat n).toNat = n := by
  rw [UInt8.toNat_ofNat']
  omega

/-- The first byte of a character of two bytes. -/
theorem leadRange_two {v : Nat} (hlo : 128 ≤ v) (hhi : v ≤ 2047) :
    leadRange (UInt8.ofNat (v / 64 % 32 + 192)) = some (1, 0x80, 0xBF) := by
  rw [leadRange_eq, toNat_byte (by omega), if_pos (by omega)]

/-- The first byte of a character of three bytes. The range of the second one leaves out what
two bytes are enough for, and the surrogates. -/
theorem leadRange_three {v : Nat} (hlo : 2048 ≤ v) (hhi : v ≤ 65535)
    (hvalid : v < 0xD800 ∨ 0xDFFF < v) :
    ∃ lo hi, leadRange (UInt8.ofNat (v / 4096 % 16 + 224)) = some (2, lo, hi) ∧
      lo.toNat ≤ v / 64 % 64 + 128 ∧ v / 64 % 64 + 128 ≤ hi.toNat := by
  rw [leadRange_eq, toNat_byte (by omega), if_neg (by omega)]
  by_cases h0 : v / 4096 % 16 = 0
  · rw [if_pos (by omega)]
    refine ⟨_, _, rfl, ?_⟩
    simp only [UInt8.reduceToNat]
    omega
  · rw [if_neg (by omega)]
    by_cases hD : v / 4096 % 16 = 13
    · rw [if_pos (by omega)]
      refine ⟨_, _, rfl, ?_⟩
      simp only [UInt8.reduceToNat]
      omega
    · rw [if_neg (by omega), if_pos (by omega)]
      refine ⟨_, _, rfl, ?_⟩
      simp only [UInt8.reduceToNat]
      omega

/-- The first byte of a character of four bytes. The range of the second one leaves out what
three bytes are enough for, and what is no code point. -/
theorem leadRange_four {v : Nat} (hlo : 65536 ≤ v) (hhi : v ≤ 0x10FFFF) :
    ∃ lo hi, leadRange (UInt8.ofNat (v / 262144 % 8 + 240)) = some (3, lo, hi) ∧
      lo.toNat ≤ v / 4096 % 64 + 128 ∧ v / 4096 % 64 + 128 ≤ hi.toNat := by
  rw [leadRange_eq, toNat_byte (by omega), if_neg (by omega), if_neg (by omega),
    if_neg (by omega), if_neg (by omega)]
  by_cases h0 : v / 262144 % 8 = 0
  · rw [if_pos (by omega)]
    refine ⟨_, _, rfl, ?_⟩
    simp only [UInt8.reduceToNat]
    omega
  · rw [if_neg (by omega)]
    by_cases h4 : v / 262144 % 8 = 4
    · rw [if_neg (by omega), if_pos (by omega)]
      refine ⟨_, _, rfl, ?_⟩
      simp only [UInt8.reduceToNat]
      omega
    · rw [if_pos (by omega)]
      refine ⟨_, _, rfl, ?_⟩
      simp only [UInt8.reduceToNat]
      omega

/-! ### Following bytes -/

/-- A byte with six bits of a code point is taken if it lies in the range. -/
theorem scanTail_byte {lo hi : UInt8} {k : Nat} (hk : k < 64) (hlo : lo.toNat ≤ k + 128)
    (hhi : k + 128 ≤ hi.toNat) (n acc : Nat) (bs : List UInt8) :
    scanTail (n + 1) lo hi acc (UInt8.ofNat (k + 128) :: bs) =
      ((scanTail n 0x80 0xBF (acc * 64 + k) bs).1,
        (scanTail n 0x80 0xBF (acc * 64 + k) bs).2 + 1) := by
  have hb : (UInt8.ofNat (k + 128)).toNat = k + 128 := toNat_byte (by omega)
  have hbits : (k + 128) % 64 = k := by omega
  rw [scanTail, if_pos, hb, hbits]
  rw [UInt8.le_iff_toNat_le, UInt8.le_iff_toNat_le, hb]
  exact ⟨hlo, hhi⟩

/-- A byte with six bits of a code point continues every sequence. -/
theorem scanTail_continuation {k : Nat} (hk : k < 64) (n acc : Nat) (bs : List UInt8) :
    scanTail (n + 1) 0x80 0xBF acc (UInt8.ofNat (k + 128) :: bs) =
      ((scanTail n 0x80 0xBF (acc * 64 + k) bs).1,
        (scanTail n 0x80 0xBF (acc * 64 + k) bs).2 + 1) := by
  have hlo : (0x80 : UInt8).toNat = 128 := rfl
  have hhi : (0xBF : UInt8).toNat = 191 := rfl
  exact scanTail_byte hk (by omega) (by omega) n acc bs

/-- A sequence is read as its first byte says. -/
theorem scanChar_lead {k n : Nat} {lo hi : UInt8} (hk : 128 ≤ k) (hbyte : k < 256)
    (hlead : leadRange (UInt8.ofNat k) = some (n, lo, hi)) (bs : List UInt8) :
    scanChar (UInt8.ofNat k) bs =
      ((scanTail n lo hi (k % Nat.pow 2 (6 - n)) bs).1.map Char.ofNat,
        (scanTail n lo hi (k % Nat.pow 2 (6 - n)) bs).2) := by
  have hb : (UInt8.ofNat k).toNat = k := toNat_byte hbyte
  have hascii : ¬ UInt8.ofNat k < 0x80 := by
    rw [UInt8.lt_iff_toNat_lt, hb]
    exact Nat.not_lt.2 hk
  rw [scanChar, if_neg hascii, hlead]
  simp only [leadBits, hb]

/-! ### Characters by their length -/

/-- One byte is read as the code point that it was made from. -/
theorem scanChar_one {v : Nat} (h : v ≤ 127) (rest : List UInt8) :
    scanChar (UInt8.ofNat v) rest = (some (Char.ofNat v), 0) := by
  have hb : (UInt8.ofNat v).toNat = v := toNat_byte (by omega)
  have hascii : UInt8.ofNat v < 0x80 := by
    rw [UInt8.lt_iff_toNat_lt, hb]
    exact Nat.lt_succ_of_le h
  rw [scanChar, if_pos hascii, hb]

/-- Two bytes are read as the code point that they were made from. -/
theorem scanChar_two {v : Nat} (hlo : 128 ≤ v) (hhi : v ≤ 2047) (rest : List UInt8) :
    scanChar (UInt8.ofNat (v / 64 % 32 + 192)) (UInt8.ofNat (v % 64 + 128) :: rest) =
      (some (Char.ofNat v), 1) := by
  have hpoint : (v / 64 % 32 + 192) % 32 * 64 + v % 64 = v := by omega
  rw [scanChar_lead (by omega) (by omega) (leadRange_two hlo hhi),
    scanTail_continuation (by omega), scanTail]
  exact congrArg (fun n => (some (Char.ofNat n), 1)) hpoint

/-- Three bytes are read as the code point that they were made from. -/
theorem scanChar_three {v : Nat} (hlo : 2048 ≤ v) (hhi : v ≤ 65535)
    (hvalid : v < 0xD800 ∨ 0xDFFF < v) (rest : List UInt8) :
    scanChar (UInt8.ofNat (v / 4096 % 16 + 224))
        (UInt8.ofNat (v / 64 % 64 + 128) :: UInt8.ofNat (v % 64 + 128) :: rest) =
      (some (Char.ofNat v), 2) := by
  obtain ⟨lo, hi, hlead, hlow, hhigh⟩ := leadRange_three hlo hhi hvalid
  have hpoint : ((v / 4096 % 16 + 224) % 16 * 64 + v / 64 % 64) * 64 + v % 64 = v := by omega
  rw [scanChar_lead (by omega) (by omega) hlead, scanTail_byte (by omega) hlow hhigh,
    scanTail_continuation (by omega), scanTail]
  exact congrArg (fun n => (some (Char.ofNat n), 2)) hpoint

/-- Four bytes are read as the code point that they were made from. -/
theorem scanChar_four {v : Nat} (hlo : 65536 ≤ v) (hhi : v ≤ 0x10FFFF) (rest : List UInt8) :
    scanChar (UInt8.ofNat (v / 262144 % 8 + 240))
        (UInt8.ofNat (v / 4096 % 64 + 128) :: UInt8.ofNat (v / 64 % 64 + 128) ::
          UInt8.ofNat (v % 64 + 128) :: rest) =
      (some (Char.ofNat v), 3) := by
  obtain ⟨lo, hi, hlead, hlow, hhigh⟩ := leadRange_four hlo hhi
  have hpoint : (((v / 262144 % 8 + 240) % 8 * 64 + v / 4096 % 64) * 64 + v / 64 % 64) * 64 +
      v % 64 = v := by omega
  rw [scanChar_lead (by omega) (by omega) hlead, scanTail_byte (by omega) hlow hhigh,
    scanTail_continuation (by omega), scanTail_continuation (by omega), scanTail]
  exact congrArg (fun n => (some (Char.ofNat n), 3)) hpoint

/-- **The bytes of a character are read as this character**, whatever follows them. -/
theorem scanChar_utf8EncodeChar (c : Char) (rest : List UInt8) :
    ∃ b bs, String.utf8EncodeChar c = b :: bs ∧
      scanChar b (bs ++ rest) = (some c, bs.length) := by
  have hvalid : c.toNat < 0xD800 ∨ 0xDFFF < c.toNat ∧ c.toNat < 0x110000 := c.valid
  have hc : some (Char.ofNat c.toNat) = some c := congrArg some (Char.ofNat_toNat c)
  change ∃ b bs, (if c.toNat ≤ 127 then _ else if c.toNat ≤ 2047 then _
    else if c.toNat ≤ 65535 then _ else _) = b :: bs ∧ _
  rw [← hc]
  split
  · next h1 => exact ⟨_, [], rfl, scanChar_one h1 rest⟩
  · next h1 =>
    split
    · next h2 => exact ⟨_, _, rfl, scanChar_two (v := c.toNat) (by omega) h2 rest⟩
    · next h2 =>
      split
      · next h3 => exact ⟨_, _, rfl, scanChar_three (v := c.toNat) (by omega) h3 (by omega) rest⟩
      · exact ⟨_, _, rfl, scanChar_four (v := c.toNat) (by omega) (by omega) rest⟩

/-! ### Texts -/

/-- The bytes of a text are those of its characters, one after the other. -/
theorem encode_eq (s : String) : encode s = s.toList.flatMap String.utf8EncodeChar := by
  have hbytes : s.toUTF8 = s.toList.utf8Encode :=
    congrArg String.toUTF8 (String.ofList_toList (s := s)).symm
  rw [encode, hbytes, List.utf8Encode, List.data_toByteArray]

/-- **The bytes of a text are read as this text**, whatever follows them. -/
theorem decodeLossy_encode_append (s : String) (rest : List UInt8) :
    decodeLossy (encode s ++ rest) = s.toList ++ decodeLossy rest := by
  rw [encode_eq]
  induction s.toList with
  | nil => rfl
  | cons c cs ih =>
      obtain ⟨b, bs, hbytes, hscan⟩ :=
        scanChar_utf8EncodeChar c (cs.flatMap String.utf8EncodeChar ++ rest)
      rw [List.flatMap_cons, hbytes, List.append_assoc, List.cons_append, decodeLossy, hscan,
        List.drop_left, ih]
      rfl

/-- The bytes of a text are UTF-8 throughout. -/
theorem decode?_encode (s : String) : decode? (encode s) = some s.toList := by
  rw [encode_eq]
  induction s.toList with
  | nil => rw [List.flatMap_nil, decode?]
  | cons c cs ih =>
      obtain ⟨b, bs, hbytes, hscan⟩ :=
        scanChar_utf8EncodeChar c (cs.flatMap String.utf8EncodeChar)
      rw [List.flatMap_cons, hbytes, List.cons_append, decode?, hscan, List.drop_left, ih]
      rfl

/-- A byte with its highest bit set is no line feed. -/
theorem ofNat_ne_lineFeed {n : Nat} (hn : 128 ≤ n) (hbyte : n < 256) :
    UInt8.ofNat n ≠ 0x0A := by
  intro h
  have hnat : (UInt8.ofNat n).toNat = 10 := by rw [h]; rfl
  rw [toNat_byte hbyte] at hnat
  omega

/-- Only the line feed has a line feed among its bytes. -/
theorem lineFeed_notMem_utf8EncodeChar {c : Char} (h : c ≠ '\n') :
    0x0A ∉ String.utf8EncodeChar c := by
  change 0x0A ∉ (if c.toNat ≤ 127 then [UInt8.ofNat c.toNat] else if c.toNat ≤ 2047 then _
    else if c.toNat ≤ 65535 then _ else _)
  split
  · next h1 =>
    intro hmem
    have hb : (UInt8.ofNat c.toNat).toNat = c.toNat := toNat_byte (by omega)
    have hnat : c.toNat = 10 := by
      rw [← hb, ← List.mem_singleton.1 hmem]
      rfl
    exact h (by rw [← Char.ofNat_toNat c, hnat])
  · have hne {n : Nat} (hn : 128 ≤ n) (hbyte : n < 256) : 0x0A ≠ UInt8.ofNat n :=
      (ofNat_ne_lineFeed hn hbyte).symm
    split
    · simp only [List.mem_cons, List.not_mem_nil, or_false, not_or]
      exact ⟨hne (by omega) (by omega), hne (by omega) (by omega)⟩
    · split
      · simp only [List.mem_cons, List.not_mem_nil, or_false, not_or]
        exact ⟨hne (by omega) (by omega), hne (by omega) (by omega), hne (by omega) (by omega)⟩
      · simp only [List.mem_cons, List.not_mem_nil, or_false, not_or]
        exact ⟨hne (by omega) (by omega), hne (by omega) (by omega), hne (by omega) (by omega),
          hne (by omega) (by omega)⟩

/-- **A text without a line feed has none among its bytes.** -/
theorem lineFeed_notMem_encode {s : String} (h : '\n' ∉ s.toList) : 0x0A ∉ encode s := by
  rw [encode_eq, List.mem_flatMap]
  rintro ⟨c, hc, hmem⟩
  refine lineFeed_notMem_utf8EncodeChar ?_ hmem
  rintro rfl
  exact h hc

end DryRun.Text
