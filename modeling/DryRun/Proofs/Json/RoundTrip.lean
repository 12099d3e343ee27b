import DryRun.Proofs.Json.Numbers

/-!
# Reading what was written as JSON

The writer puts a value in front of a text, and the reader takes one off the front. This module
shows that the second undoes the first, in either layout and whatever is written behind the value.
A text is read as the same characters and a number as one of the same value, so what is read is
`Json.reread`, the same value with its numbers reread. Behind a number there is a comma, a bracket,
a line feed or nothing, and none of these goes on with it.

The fuel of the reader bounds how many steps it takes, and each step takes a character
(`Json.length_lt_write`), so the length of the text is enough of it.

## Main results

* `Json.readUnits_writeString`, `Json.charsOfUnits?_map_unitOf`: a written text is read as this
  text.
* `Json.readValue_write`: a written value is read, with what follows it left over.
* `Json.ofText?_write`: a whole text that was written is read.
-/

namespace DryRun.Json

/-! ### Texts -/

/-- The unit that is read where a character of a text was written. -/
def unitOf (c : Char) : TextUnit :=
  if c.toNat < 0x20 ∧ c ∉ ['\n', '\r', '\t', '\x08', '\x0c'] then .code c.toNat else .char c

/-- A hexadecimal digit is read as its value. -/
theorem hexValue?_hexDigit {n : Nat} (h : n < 16) : hexValue? (hexDigit n) = some n := by
  have hall : ∀ n : Fin 16, hexValue? (hexDigit n) = some n.val := by decide
  exact hall ⟨n, h⟩

/-- A control character is read as its code unit. -/
theorem readHex_control {n : Nat} (h : n < 0x20) (rest : List Char) :
    readHex ('0' :: '0' :: hexDigit (n / 16) :: hexDigit (n % 16) :: rest) = some (n, rest) := by
  have hzero : hexValue? '0' = some 0 := rfl
  simp only [readHex, hzero, hexValue?_hexDigit (show n / 16 < 16 by omega),
    hexValue?_hexDigit (Nat.mod_lt n (by decide)), Option.bind_eq_bind, Option.bind_some,
    Option.pure_def]
  congr 2
  omega

/-- Behind a backslash one unit is read from an escape. -/
theorem readUnits_backslash {cs rest : List Char} {u : TextUnit}
    (h : readEscape cs = some (u, rest)) (fuel : Nat) :
    readUnits (fuel + 1) ('\\' :: cs) =
      (readUnits fuel rest).map fun r => (u :: r.1, r.2) := by
  rw [readUnits, if_neg (by decide), if_pos rfl, h]
  simp only [Option.bind_eq_bind, Option.bind_some]
  cases readUnits fuel rest <;> rfl

/-- **One character of a text is read as one unit.** -/
theorem readUnits_escape (fuel : Nat) (c : Char) (rest : List Char) :
    readUnits (fuel + 1) (escape c ++ rest) =
      (readUnits fuel rest).map fun r => (unitOf c :: r.1, r.2) := by
  -- Only the control characters without a short escape are read as code units.
  by_cases hshort : c ∈ ['"', '\\', '\n', '\r', '\t', '\x08', '\x0c']
  · simp only [List.mem_cons, List.not_mem_nil, or_false] at hshort
    rcases hshort with rfl | rfl | rfl | rfl | rfl | rfl | rfl <;>
      exact readUnits_backslash rfl fuel
  · simp only [List.mem_cons, List.not_mem_nil, or_false, not_or] at hshort
    obtain ⟨hquote, hbackslash, hn, hr, ht, hb, hf⟩ := hshort
    by_cases hcontrol : c.toNat < 0x20
    · have hescape : escape c ++ rest = '\\' :: 'u' :: '0' :: '0' ::
          hexDigit (c.toNat / 16) :: hexDigit (c.toNat % 16) :: rest := by
        simp [escape, hquote, hbackslash, hn, hr, ht, hb, hf, hcontrol]
      have hunit : unitOf c = .code c.toNat := by
        simp [unitOf, hcontrol, hn, hr, ht, hb, hf]
      rw [hescape, hunit]
      refine readUnits_backslash ?_ fuel
      rw [readEscape, readHex_control hcontrol, Option.map_some]
    · have hescape : escape c ++ rest = c :: rest := by
        simp [escape, hquote, hbackslash, hn, hr, ht, hb, hf, hcontrol]
      have hunit : unitOf c = .char c := by simp [unitOf, hcontrol]
      rw [hescape, hunit, readUnits, if_neg hquote, if_neg hbackslash, if_neg hcontrol]
      cases readUnits fuel rest <;> rfl

/-- The characters of a text in quotes, without the quote in front. -/
theorem readUnits_writeString {cs rest : List Char} {fuel : Nat} (hfuel : cs.length < fuel) :
    readUnits fuel (cs.foldr (fun c rest => escape c ++ rest) ('"' :: rest)) =
      some (cs.map unitOf, rest) := by
  induction cs generalizing fuel with
  | nil =>
      obtain ⟨fuel, rfl⟩ := Nat.exists_eq_succ_of_ne_zero (Nat.ne_of_gt hfuel)
      rfl
  | cons c cs ih =>
      obtain ⟨fuel, rfl⟩ := Nat.exists_eq_succ_of_ne_zero (Nat.ne_of_gt (Nat.zero_lt_of_lt hfuel))
      rw [List.foldr_cons, readUnits_escape, ih (Nat.lt_of_succ_lt_succ hfuel)]
      rfl

/-- A code unit that is no half of a pair stands for itself. -/
theorem charsOfUnits?_code {n : Nat} (h : n < 0xD800) (us : List TextUnit) :
    charsOfUnits? (.code n :: us) = (charsOfUnits? us).map (Char.ofNat n :: ·) := by
  have hhigh : isHighSurrogate n = false := by simp [isHighSurrogate, h]
  have hlow : isLowSurrogate n = false := by
    simp only [isLowSurrogate, Bool.and_eq_false_iff, decide_eq_false_iff_not]
    omega
  rcases us with - | ⟨c | m, us⟩ <;> simp [charsOfUnits?, hhigh, hlow]

/-- **The units of a text stand for its characters.** -/
theorem charsOfUnits?_map_unitOf (cs : List Char) : charsOfUnits? (cs.map unitOf) = some cs := by
  induction cs with
  | nil => rfl
  | cons c cs ih =>
      rw [List.map_cons, unitOf]
      split
      · next hcontrol =>
          rw [charsOfUnits?_code (by omega), ih, Char.ofNat_toNat]
          rfl
      · rw [charsOfUnits?, ih]
        rfl

/-- The units of a string's characters make up the string. -/
theorem stringOfUnits?_map_unitOf (s : String) :
    stringOfUnits? (s.toList.map unitOf) = some s := by
  rw [stringOfUnits?, charsOfUnits?_map_unitOf, Option.map_some, String.ofList_toList]

/-- The units of a string's characters are read as the string. -/
theorem ofUnits_map_unitOf (s : String) : ofUnits (s.toList.map unitOf) = .string s := by
  rw [ofUnits, stringOfUnits?_map_unitOf]

/-! ### Values -/

mutual

/-- Whether all numbers of a value are written so that they can be read. -/
def IsNormal : Json → Prop
  | .number n => n.IsNormal
  | .list vs => ItemsNormal vs
  | .object ms => MembersNormal ms
  | _ => True

/-- Whether all numbers of some items are written so that they can be read. -/
def ItemsNormal : List Json → Prop
  | [] => True
  | v :: vs => v.IsNormal ∧ ItemsNormal vs

/-- Whether all numbers of some members are written so that they can be read. -/
def MembersNormal : List (String × Json) → Prop
  | [] => True
  | (_, v) :: ms => v.IsNormal ∧ MembersNormal ms

end

mutual

/-- The value that is read where a value was written. -/
def reread : Json → Json
  | .null | .broken => .null
  | .bool b => .bool b
  | .number n => .number n.reread
  | .string s => .string s
  | .list vs => .list (rereadItems vs)
  | .object ms => .object (rereadMembers ms)

/-- The items that are read where some items were written. -/
def rereadItems : List Json → List Json
  | [] => []
  | v :: vs => v.reread :: rereadItems vs

/-- The members that are read where some members were written. -/
def rereadMembers : List (String × Json) → List (String × Json)
  | [] => []
  | (k, v) :: ms => (k, v.reread) :: rereadMembers ms

end

/-! ### Blanks between values -/

/-- Nothing is skipped before a character that is not blank. -/
theorem skipBlanks_cons {c : Char} (h : isBlank c = false) (cs : List Char) :
    skipBlanks (c :: cs) = c :: cs :=
  List.dropWhile_cons_of_neg (by simp [h])

/-- A new line and its indentation are skipped. -/
theorem skipBlanks_newline (l : Layout) (level : Nat) (cs : List Char) :
    skipBlanks (l.newline level cs) = skipBlanks cs := by
  cases l with
  | compact => rfl
  | indented =>
      have hblanks : ∀ c ∈ List.replicate (2 * level) ' ', isBlank c := by
        intro c hc
        rw [List.eq_of_mem_replicate hc]
        rfl
      exact List.dropWhile_append_of_pos hblanks

/-- A number does not start with a blank. -/
theorem isBlank_of_startsNumber {c : Char} (h : c.isDigit ∨ c = '-') : isBlank c = false := by
  rw [Bool.eq_false_iff]
  intro hblank
  simp only [isBlank, Bool.or_eq_true, decide_eq_true_eq] at hblank
  rcases hblank with ((rfl | rfl) | rfl) | rfl <;> exact absurd h (by decide)

/-- In every layout a name is followed by a colon, and only blanks follow that. -/
theorem skipBlanks_colon (l : Layout) (cs : List Char) :
    ∃ cs', l.colon cs = ':' :: cs' ∧ skipBlanks cs' = skipBlanks cs := by
  cases l with
  | compact => exact ⟨_, rfl, rfl⟩
  | indented => exact ⟨_, rfl, rfl⟩

/-- A value is found behind blanks. -/
theorem readValue_congr {cs cs' : List Char} (h : skipBlanks cs = skipBlanks cs')
    (fuel : Nat) : readValue fuel cs = readValue fuel cs' := by
  cases fuel with
  | zero => rfl
  | succ fuel => rw [readValue, readValue, h]

/-- Blanks before the items of a list do not matter. -/
theorem readItems_skipBlanks (fuel : Nat) (cs : List Char) :
    readItems fuel (skipBlanks cs) = readItems fuel cs := by
  cases fuel with
  | zero => rfl
  | succ fuel =>
      have hblanks : skipBlanks (skipBlanks cs) = skipBlanks cs := List.dropWhile_idempotent _ cs
      rw [readItems, readItems, readValue_congr hblanks]

/-- Blanks before the members of an object do not matter. -/
theorem readMembers_skipBlanks (fuel : Nat) (cs : List Char) :
    readMembers fuel (skipBlanks cs) = readMembers fuel cs := by
  cases fuel with
  | zero => rfl
  | succ fuel =>
      have hblanks : skipBlanks (skipBlanks cs) = skipBlanks cs := List.dropWhile_idempotent _ cs
      rw [readMembers, readMembers, hblanks]

/-- A written value starts with something that is neither a blank nor the end of a list. -/
theorem exists_write_eq (l : Layout) (level : Nat) (v : Json) (rest : List Char) :
    ∃ c cs, v.write l level rest = c :: cs ∧ isBlank c = false ∧ c ≠ ']' := by
  cases v with
  | null => exact ⟨_, _, rfl, rfl, by decide⟩
  | broken => exact ⟨_, _, rfl, rfl, by decide⟩
  | bool b => cases b <;> exact ⟨_, _, rfl, rfl, by decide⟩
  | number n =>
      obtain ⟨c, cs, hc, hchars⟩ := n.exists_chars_eq
      refine ⟨c, cs ++ rest, by rw [write, hchars]; rfl, ?_, ?_⟩
      · exact isBlank_of_startsNumber hc
      · rintro rfl
        exact absurd hc (by decide)
  | string s => exact ⟨_, _, rfl, rfl, by decide⟩
  | list vs => cases vs <;> exact ⟨_, _, rfl, rfl, by decide⟩
  | object ms => rcases ms with - | ⟨⟨k, v⟩, ms⟩ <;> exact ⟨_, _, rfl, rfl, by decide⟩

/-- No value is written with a blank in front. -/
theorem skipBlanks_write (l : Layout) (level : Nat) (v : Json) (rest : List Char) :
    skipBlanks (v.write l level rest) = v.write l level rest := by
  obtain ⟨c, cs, hwrite, hblank, -⟩ := exists_write_eq l level v rest
  rw [hwrite, skipBlanks_cons hblank]

/-! ### Lengths of texts -/

/-- A new line makes a text no shorter. -/
theorem length_le_newline (l : Layout) (level : Nat) (cs : List Char) :
    cs.length ≤ (l.newline level cs).length := by
  cases l with
  | compact => exact Nat.le_refl _
  | indented =>
      rw [Layout.newline, List.length_cons, List.length_append]
      omega

/-- A colon makes a text longer. -/
theorem length_lt_colon (l : Layout) (cs : List Char) : cs.length < (l.colon cs).length := by
  cases l with
  | compact => exact Nat.lt_succ_self _
  | indented =>
      rw [Layout.colon, List.length_cons, List.length_cons]
      omega

/-- Every character is written. -/
theorem length_pos_escape (c : Char) : 0 < (escape c).length := by
  unfold escape
  split_ifs <;> exact Nat.succ_pos _

/-- A string takes up its characters and two quotes at least. -/
theorem length_le_writeString (s : String) (rest : List Char) :
    s.toList.length + rest.length + 2 ≤ (writeString s rest).length := by
  rw [writeString, List.length_cons]
  induction s.toList with
  | nil => simp
  | cons c cs ih =>
      have := length_pos_escape c
      rw [List.foldr_cons, List.length_append, List.length_cons]
      omega

/-- The name of a member takes up its characters, two quotes and a colon at least. -/
theorem length_le_member (l : Layout) (level : Nat) (name : String) (cs : List Char) :
    name.toList.length + cs.length + 3 ≤
      (l.newline level (writeString name (l.colon cs))).length := by
  have hcolon := length_lt_colon l cs
  have hname := length_le_writeString name (l.colon cs)
  have hnewline := length_le_newline l level (writeString name (l.colon cs))
  omega

mutual

/-- Writing a value takes one character at least. -/
theorem length_lt_write (l : Layout) : ∀ (v : Json) (level : Nat) (rest : List Char),
    rest.length < (v.write l level rest).length
  | .null, _, _ | .broken, _, _ | .bool true, _, _ | .bool false, _, _ | .list [], _, _
  | .object [], _, _ => by
      simp only [write, List.length_cons]
      omega
  | .number n, level, rest => by
      obtain ⟨c, cs, -, hchars⟩ := n.exists_chars_eq
      rw [write, hchars, List.length_append, List.length_cons]
      omega
  | .string s, level, rest => by
      have := length_le_writeString s rest
      rw [write]
      omega
  | .list (v :: vs), level, rest => length_lt_writeItems l (v :: vs) level rest
  | .object (m :: ms), level, rest => length_lt_writeMembers l (m :: ms) level rest

/-- The items of a list take up the closing bracket at least. -/
theorem length_lt_writeItems (l : Layout) : ∀ (vs : List Json) (level : Nat) (rest : List Char),
    rest.length < (writeItems l level vs rest).length
  | [], level, rest => by
      have := length_le_newline l level (']' :: rest)
      rw [List.length_cons] at this
      rw [writeItems]
      omega
  | v :: vs, level, rest => by
      have hitems := length_lt_writeItems l vs level rest
      have hvalue := length_lt_write l v (level + 1) (writeItems l level vs rest)
      have hnewline := length_le_newline l (level + 1)
        (v.write l (level + 1) (writeItems l level vs rest))
      rw [writeItems, List.length_cons]
      omega

/-- The members of an object take up the closing brace at least. -/
theorem length_lt_writeMembers (l : Layout) :
    ∀ (ms : List (String × Json)) (level : Nat) (rest : List Char),
      rest.length < (writeMembers l level ms rest).length
  | [], level, rest => by
      have := length_le_newline l level ('\x7d' :: rest)
      rw [List.length_cons] at this
      rw [writeMembers]
      omega
  | (k, v) :: ms, level, rest => by
      have hmembers := length_lt_writeMembers l ms level rest
      have hvalue := length_lt_write l v (level + 1) (writeMembers l level ms rest)
      have hmember := length_le_member l (level + 1) k
        (v.write l (level + 1) (writeMembers l level ms rest))
      rw [writeMembers, List.length_cons]
      omega

end

/-! ### Reading values -/

/-- What starts like a number is read as a number. -/
theorem readValue_of_startsNumber {c : Char} (h : c.isDigit ∨ c = '-') (fuel : Nat)
    (cs : List Char) :
    readValue (fuel + 1) (c :: cs) = (readNumber (c :: cs)).map fun r => (.number r.1, r.2) := by
  rw [readValue, skipBlanks_cons (isBlank_of_startsNumber h)]
  split
  case h_7 =>
    cases readNumber (c :: cs) <;> rfl
  all_goals
    next heq =>
      cases heq
      exact absurd h (by decide)

/-- A list that does not end at once has its items read. -/
theorem readValue_of_items {cs : List Char} (h : ∀ c ∈ (skipBlanks cs).head?, c ≠ ']')
    (fuel : Nat) :
    readValue (fuel + 1) ('[' :: cs) = (readItems fuel cs).map fun r => (.list r.1, r.2) := by
  rw [readValue, skipBlanks_cons rfl, ← readItems_skipBlanks]
  simp only
  split
  · next heq =>
      rw [heq] at h
      exact absurd rfl (h _ rfl)
  · cases readItems fuel (skipBlanks cs) <;> rfl

/-- An object that does not end at once has its members read. -/
theorem readValue_of_members {cs : List Char} (h : ∀ c ∈ (skipBlanks cs).head?, c ≠ '\x7d')
    (fuel : Nat) :
    readValue (fuel + 1) ('\x7b' :: cs) =
      (readMembers fuel cs).map fun r => (ofMembers r.1, r.2) := by
  rw [readValue, skipBlanks_cons rfl, ← readMembers_skipBlanks]
  simp only
  split
  · next heq =>
      rw [heq] at h
      exact absurd rfl (h _ rfl)
  · cases readMembers fuel (skipBlanks cs) <;> rfl

section Items

variable {fuel : Nat} {cs tail rest : List Char} {v : Json}

/-- An item before a closing bracket is the last one. -/
theorem readItems_last (hread : readValue fuel cs = some (v, tail))
    (htail : skipBlanks tail = ']' :: rest) : readItems (fuel + 1) cs = some ([v], rest) := by
  rw [readItems, hread]
  simp only [Option.bind_eq_bind, Option.bind_some, htail]

/-- An item before a comma is followed by the other items. -/
theorem readItems_cons {vs : List Json} (hread : readValue fuel cs = some (v, ',' :: tail))
    (hrest : readItems fuel tail = some (vs, rest)) :
    readItems (fuel + 1) cs = some (v :: vs, rest) := by
  rw [readItems, hread]
  simp only [Option.bind_eq_bind, Option.bind_some,
    skipBlanks_cons (show isBlank ',' = false from rfl), hrest]
  rfl

end Items

section Members

variable {l : Layout} {fuel : Nat} {name : String} {cs value tail rest : List Char} {v : Json}

/-- A member before a closing brace is the last one. -/
theorem readMembers_last (hcs : skipBlanks cs = writeString name (l.colon value))
    (hfuel : name.toList.length < fuel) (hread : readValue fuel value = some (v, tail))
    (htail : skipBlanks tail = '\x7d' :: rest) :
    readMembers (fuel + 1) cs = some ([(some name, v)], rest) := by
  obtain ⟨cs', hcolon, hblanks⟩ := skipBlanks_colon l value
  rw [readMembers, hcs, hcolon, writeString]
  simp only [readUnits_writeString hfuel, Option.bind_eq_bind, Option.bind_some,
    skipBlanks_cons (show isBlank ':' = false from rfl), readValue_congr hblanks, hread,
    stringOfUnits?_map_unitOf, htail]

/-- A member before a comma is followed by the other members. -/
theorem readMembers_cons {ms : List (Option String × Json)}
    (hcs : skipBlanks cs = writeString name (l.colon value))
    (hfuel : name.toList.length < fuel) (hread : readValue fuel value = some (v, ',' :: tail))
    (hrest : readMembers fuel tail = some (ms, rest)) :
    readMembers (fuel + 1) cs = some ((some name, v) :: ms, rest) := by
  obtain ⟨cs', hcolon, hblanks⟩ := skipBlanks_colon l value
  rw [readMembers, hcs, hcolon, writeString]
  simp only [readUnits_writeString hfuel, Option.bind_eq_bind, Option.bind_some,
    skipBlanks_cons (show isBlank ':' = false from rfl), readValue_congr hblanks, hread,
    stringOfUnits?_map_unitOf, skipBlanks_cons (show isBlank ',' = false from rfl), hrest]
  rfl

end Members

/-- No number goes on into the items of a list that follow it: they start with a comma, a bracket
or a new line. -/
theorem endsNumber_writeItems (l : Layout) (level : Nat) (vs : List Json) (rest : List Char) :
    EndsNumber (writeItems l level vs rest) := by
  intro c hc
  cases vs <;> cases l <;> cases hc <;> decide

/-- No number goes on into the members of an object that follow it. -/
theorem endsNumber_writeMembers (l : Layout) (level : Nat) (ms : List (String × Json))
    (rest : List Char) : EndsNumber (writeMembers l level ms rest) := by
  intro c hc
  rcases ms with - | ⟨⟨k, v⟩, ms⟩ <;> cases l <;> cases hc <;> decide

/-- The members of an object whose names can be read. -/
theorem ofMembers_map (ms : List (String × Json)) :
    ofMembers (ms.map fun m => (some m.1, m.2)) = .object ms := by
  have hnames : (ms.map fun m => (some m.1, m.2)).mapM
      (fun m : Option String × Json => m.1.map (·, m.2)) = some ms := by
    induction ms with
    | nil => rfl
    | cons m ms ih => simp [List.mapM_cons, ih]
  rw [ofMembers, hnames]

-- The readers call each other as the writers do, so the induction is the recursion of the writers.
mutual

/-- A written value is read with what follows it left over. The fuel suffices because each step of
the reader takes one character at least. -/
theorem readValue_write (l : Layout) : ∀ v : Json, v.IsNormal →
    ∀ {level fuel : Nat} {rest : List Char}, EndsNumber rest →
      (v.write l level rest).length ≤ rest.length + fuel →
      readValue fuel (v.write l level rest) = some (v.reread, rest)
  | v, hv, level, 0, rest, _, hfuel => by
      have := length_lt_write l v level rest
      omega
  | .null, _, _, fuel + 1, _, _, _ | .broken, _, _, fuel + 1, _, _, _
  | .bool true, _, _, fuel + 1, _, _, _ | .bool false, _, _, fuel + 1, _, _, _
  | .list [], _, _, fuel + 1, _, _, _ | .object [], _, _, fuel + 1, _, _, _ => by
      rw [write, readValue, skipBlanks_cons rfl]
      rfl
  | .number n, hn, level, fuel + 1, rest, hrest, _ => by
      obtain ⟨c, cs, hc, hchars⟩ := n.exists_chars_eq
      have hread := readNumber_chars hn hrest
      rw [hchars] at hread
      rw [write, hchars, List.cons_append, readValue_of_startsNumber hc, ← List.cons_append, hread]
      rfl
  | .string s, _, level, fuel + 1, rest, _, hfuel => by
      have hlength := length_le_writeString s rest
      rw [write] at hfuel
      rw [write, writeString, readValue, skipBlanks_cons rfl]
      change (readUnits fuel _).bind _ = _
      rw [readUnits_writeString (by omega), Option.bind_some, reread, ← ofUnits_map_unitOf s]
      rfl
  | .list (v :: vs), hvs, level, fuel + 1, rest, _, hfuel => by
      have hitems := readItems_write l (v :: vs) hvs rfl (Nat.le_of_succ_le_succ hfuel)
      have hhead : ∀ c ∈ (skipBlanks (l.newline (level + 1)
          (v.write l (level + 1) (writeItems l level vs rest)))).head?, c ≠ ']' := by
        obtain ⟨c, cs, hwrite, -, hc⟩ :=
          exists_write_eq l (level + 1) v (writeItems l level vs rest)
        rw [skipBlanks_newline, skipBlanks_write, hwrite]
        rintro _ ⟨⟩
        exact hc
      rw [write, readValue_of_items hhead, hitems]
      rfl
  | .object ((k, v) :: ms), hms, level, fuel + 1, rest, _, hfuel => by
      have hmembers := readMembers_write l ((k, v) :: ms) hms rfl (Nat.le_of_succ_le_succ hfuel)
      rw [write, readValue_of_members _ fuel, hmembers, Option.map_some, ofMembers_map]
      · rfl
      · rw [skipBlanks_newline, writeString, skipBlanks_cons rfl]
        rintro _ ⟨⟩
        decide

/-- The items of a list are read up to its end. -/
theorem readItems_write (l : Layout) : ∀ vs : List Json, ItemsNormal vs →
    ∀ {level fuel : Nat} {tail rest : List Char}, writeItems l level vs rest = ',' :: tail →
      tail.length ≤ rest.length + fuel → readItems fuel tail = some (rereadItems vs, rest)
  | [], _, level, fuel, tail, rest, htail, _ => by cases l <;> cases htail
  | v :: vs, hvs, level, fuel, tail, rest, htail, hfuel => by
      have hitems := length_lt_writeItems l vs level rest
      have hvalue := length_lt_write l v (level + 1) (writeItems l level vs rest)
      have hnewline := length_le_newline l (level + 1)
        (v.write l (level + 1) (writeItems l level vs rest))
      cases htail
      obtain ⟨fuel, rfl⟩ : ∃ f, fuel = f + 1 := ⟨fuel - 1, by omega⟩
      have hread : readValue fuel (v.write l (level + 1) (writeItems l level vs rest)) =
          some (v.reread, writeItems l level vs rest) :=
        readValue_write l v hvs.1 (endsNumber_writeItems l level vs rest) (by omega)
      rw [← readValue_congr (skipBlanks_newline l (level + 1) _)] at hread
      cases vs with
      | nil => exact readItems_last hread (by rw [writeItems, skipBlanks_newline]; rfl)
      | cons w ws =>
          have hlength : (writeItems l level (w :: ws) rest).length = _ + 1 := rfl
          exact readItems_cons hread (readItems_write l (w :: ws) hvs.2 rfl (by omega))

/-- The members of an object are read up to its end. -/
theorem readMembers_write (l : Layout) : ∀ ms : List (String × Json), MembersNormal ms →
    ∀ {level fuel : Nat} {tail rest : List Char}, writeMembers l level ms rest = ',' :: tail →
      tail.length ≤ rest.length + fuel →
      readMembers fuel tail = some ((rereadMembers ms).map fun m => (some m.1, m.2), rest)
  | [], _, level, fuel, tail, rest, htail, _ => by cases l <;> cases htail
  | (k, v) :: ms, hms, level, fuel, tail, rest, htail, hfuel => by
      have hmembers := length_lt_writeMembers l ms level rest
      have hvalue := length_lt_write l v (level + 1) (writeMembers l level ms rest)
      have hmember := length_le_member l (level + 1) k
        (v.write l (level + 1) (writeMembers l level ms rest))
      cases htail
      obtain ⟨fuel, rfl⟩ : ∃ f, fuel = f + 1 := ⟨fuel - 1, by omega⟩
      have hread : readValue fuel (v.write l (level + 1) (writeMembers l level ms rest)) =
          some (v.reread, writeMembers l level ms rest) :=
        readValue_write l v hms.1 (endsNumber_writeMembers l level ms rest) (by omega)
      have hstart := skipBlanks_newline l (level + 1)
        (writeString k (l.colon (v.write l (level + 1) (writeMembers l level ms rest))))
      rw [writeString, skipBlanks_cons rfl, ← writeString] at hstart
      have hshort : k.toList.length < fuel := by omega
      cases ms with
      | nil =>
          exact readMembers_last hstart hshort hread
            (by rw [writeMembers, skipBlanks_newline]; rfl)
      | cons m ms =>
          have hlength : (writeMembers l level (m :: ms) rest).length = _ + 1 := rfl
          exact readMembers_cons hstart hshort hread
            (readMembers_write l (m :: ms) hms.2 rfl (by omega))

end

/-- **A text that was written is read as a value of the same numbers and texts**, in either
layout. -/
theorem ofText?_write {v : Json} (hv : v.IsNormal) (l : Layout) :
    ofText? (String.ofList (v.write l 0 [])) = some v.reread := by
  have hnil : EndsNumber [] := fun _ hc => nomatch hc
  rw [ofText?, String.toList_ofList, readValue_write l v hv hnil (by simp)]
  rfl

end DryRun.Json
