import DryRun.Number.Double
import DryRun.Proofs.Streaming
import DryRun.Proofs.Text.Utf8

/-!
# Programs given as bytes

A machine that is given bytes splits them after each line feed, decodes each part on its own,
and takes the line feeds and carriage returns off its end. This module compares that with the
machine that is given the lines as texts.

A **line** (`Text.IsLine`) is a text without a line feed that does not end in a carriage
return: any other text would be read as something else. Lines are written with an end of their
own each (`Text.LineEnd`), and the last one may do without if it is not empty, since an end of
input begins no line (`Text.programBytes`).

## Main results

* `Text.linesOfBytes_programBytes`: the lines of a program are read back from its bytes.
* `Text.linesOfBytes_append`: bytes can be cut after any line feed, whether they are text or not.
* `Machine.bytes_run_as_lines`: so a machine does the same with the bytes as with the lines, and
  with the bytes as with their parts.
-/

namespace DryRun.Text

/-! ### Splitting bytes -/

/-- A byte that is no line feed belongs to the first line. -/
theorem consByte_of_ne {b : UInt8} (h : b ≠ 0x0A) (lines : List (List UInt8)) :
    consByte b lines = (b :: lines.headD []) :: lines.tail := by
  rw [consByte.eq_def, if_neg h]
  cases lines <;> rfl

/-- A line feed ends the line of the bytes before it. -/
theorem byteLines_line {line : List UInt8} (h : 0x0A ∉ line) (rest : List UInt8) :
    byteLines (line ++ 0x0A :: rest) = (line ++ [0x0A]) :: byteLines rest := by
  induction line with
  | nil => rfl
  | cons b line ih =>
      obtain ⟨hb, hline⟩ := not_or.1 (mt List.mem_cons.2 h)
      change consByte b (byteLines (line ++ 0x0A :: rest)) = _
      rw [consByte_of_ne (Ne.symm hb), ih hline]
      rfl

/-- Bytes without a line feed are one line, unless there are none. -/
theorem byteLines_last {line : List UInt8} (hne : line ≠ []) (h : 0x0A ∉ line) :
    byteLines line = [line] := by
  induction line with
  | nil => exact absurd rfl hne
  | cons b line ih =>
      obtain ⟨hb, hline⟩ := not_or.1 (mt List.mem_cons.2 h)
      change consByte b (byteLines line) = _
      rw [consByte_of_ne (Ne.symm hb)]
      cases line with
      | nil => rfl
      | cons b' line =>
          rw [ih (List.cons_ne_nil b' line) hline]
          rfl

/-- A byte in front of lines stays in front of them when more lines follow. -/
theorem consByte_append (b : UInt8) {lines : List (List UInt8)} (h : lines ≠ [])
    (rest : List (List UInt8)) : consByte b (lines ++ rest) = consByte b lines ++ rest := by
  obtain ⟨line, lines, rfl⟩ := List.exists_cons_of_ne_nil h
  by_cases hb : b = 0x0A
  · rw [hb]
    rfl
  · rw [consByte_of_ne hb, consByte_of_ne hb]
    rfl

/-- There are lines if there are bytes. -/
theorem byteLines_ne_nil {bs : List UInt8} (h : bs ≠ []) : byteLines bs ≠ [] := by
  obtain ⟨b, bs, rfl⟩ := List.exists_cons_of_ne_nil h
  change consByte b (byteLines bs) ≠ []
  by_cases hb : b = 0x0A
  · rw [hb]
    exact List.cons_ne_nil _ _
  · rw [consByte_of_ne hb]
    exact List.cons_ne_nil _ _

/-- Bytes can be cut after any line feed. -/
theorem byteLines_append {a : List UInt8} (h : a.getLast? = some 0x0A) (b : List UInt8) :
    byteLines (a ++ b) = byteLines a ++ byteLines b := by
  induction a with
  | nil => simp at h
  | cons x a ih =>
      change consByte x (byteLines (a ++ b)) = consByte x (byteLines a) ++ byteLines b
      cases a with
      | nil =>
          obtain rfl : x = 0x0A := Option.some.inj h
          rfl
      | cons y a =>
          rw [ih (by rwa [List.getLast?_cons_cons] at h),
            consByte_append x (byteLines_ne_nil (List.cons_ne_nil y a))]

/-- The lines of bytes that are cut after a line feed are those of the two parts. -/
theorem linesOfBytes_append {a : List UInt8} (h : a.getLast? = some 0x0A) (b : List UInt8) :
    linesOfBytes (a ++ b) = linesOfBytes a ++ linesOfBytes b := by
  rw [linesOfBytes, byteLines_append h, List.map_append]
  rfl

/-! ### Lines and their ends -/

/-- A text that is one line of a program: no line feed ends it early, and its end is not taken
for a part of its line end. -/
structure IsLine (line : String) : Prop where
  noFeed : '\n' ∉ line.toList
  noReturn : line.toList.getLast? ≠ some '\r'

/-- The two ways to end a line. -/
inductive LineEnd where
  | feed
  | returnFeed

/-- The bytes of a line end. -/
def LineEnd.bytes : LineEnd → List UInt8
  | .feed => [0x0A]
  | .returnFeed => [0x0D, 0x0A]

/-- The bytes of a program: lines, each with an end of its own, and possibly a last line that has
none. -/
def programBytes (lines : List (String × LineEnd)) (last : Option String) : List UInt8 :=
  (lines.flatMap fun line => encode line.1 ++ line.2.bytes) ++ last.elim [] encode

/-- Line feeds and carriage returns are taken off the end of a line, and nothing else. -/
theorem chomp_append {line : String} (h : IsLine line) {trailing : List Char}
    (htrailing : ∀ c ∈ trailing, c = '\n' ∨ c = '\r') :
    String.ofList (chomp (line.toList ++ trailing)) = line := by
  have htrail : ∀ c ∈ trailing.reverse, (c = '\n' || c = '\r') = true := by
    intro c hc
    simpa using htrailing c (List.mem_reverse.1 hc)
  have hline : (line.toList.reverse.dropWhile fun c => c = '\n' || c = '\r') =
      line.toList.reverse := by
    cases hrev : line.toList.reverse with
    | nil => rfl
    | cons c cs =>
        have hc : c ≠ '\n' := by
          rintro rfl
          exact h.noFeed (List.mem_reverse.1 (hrev ▸ List.mem_cons_self))
        have hlast : line.toList.getLast? = some c := by
          rw [List.getLast?_eq_head?_reverse, hrev, List.head?_cons]
        have hc' : c ≠ '\r' := by
          rintro rfl
          exact h.noReturn hlast
        exact List.dropWhile_cons_of_neg (by simp [hc, hc'])
  rw [chomp, List.reverse_append, List.dropWhile_append_of_pos htrail, hline,
    List.reverse_reverse, String.ofList_toList]

/-- A line end is a line feed with at most a carriage return before it. -/
theorem LineEnd.bytes_eq (lineEnd : LineEnd) :
    ∃ before, lineEnd.bytes = before ++ [0x0A] ∧ 0x0A ∉ before := by
  cases lineEnd with
  | feed => exact ⟨[], rfl, by decide⟩
  | returnFeed => exact ⟨[0x0D], rfl, by decide⟩

/-- A line end is read as characters that are taken off a line. -/
theorem LineEnd.decodeLossy_bytes (lineEnd : LineEnd) :
    ∀ c ∈ decodeLossy lineEnd.bytes, c = '\n' ∨ c = '\r' := by
  have hfeed : decodeLossy [0x0A] = ['\n'] := by
    rw [decodeLossy, decodeLossy.eq_def]
    rfl
  have hreturn : decodeLossy [0x0D, 0x0A] = ['\r', '\n'] := by
    rw [decodeLossy]
    exact congrArg ('\r' :: ·) hfeed
  cases lineEnd with
  | feed => simp [LineEnd.bytes, hfeed]
  | returnFeed => simp [LineEnd.bytes, hreturn]

/-- A line with its end is read as this line, and the bytes after it on their own. -/
theorem linesOfBytes_line {line : String} (h : IsLine line) (lineEnd : LineEnd)
    (rest : List UInt8) :
    linesOfBytes (encode line ++ lineEnd.bytes ++ rest) = line :: linesOfBytes rest := by
  obtain ⟨before, hbytes, hbefore⟩ := lineEnd.bytes_eq
  have hfeed : 0x0A ∉ encode line ++ before := by
    rw [List.mem_append, not_or]
    exact ⟨lineFeed_notMem_encode h.noFeed, hbefore⟩
  have hsplit : byteLines (encode line ++ lineEnd.bytes ++ rest) =
      (encode line ++ lineEnd.bytes) :: byteLines rest := by
    rw [hbytes, ← List.append_assoc, List.append_assoc _ [0x0A] rest]
    exact byteLines_line hfeed rest
  rw [linesOfBytes, hsplit, List.map_cons, decodeLossy_encode_append,
    chomp_append h lineEnd.decodeLossy_bytes]
  rfl

/-- A last line without an end is read as this line. -/
theorem linesOfBytes_last {line : String} (h : IsLine line) (hne : line ≠ "") :
    linesOfBytes (encode line) = [line] := by
  have hread : decodeLossy (encode line) = line.toList ++ [] := by
    have happend := decodeLossy_encode_append line []
    rwa [List.append_nil, decodeLossy] at happend
  have hbytes : encode line ≠ [] := by
    intro hnil
    rw [hnil, decodeLossy, List.append_nil] at hread
    exact hne (String.toList_eq_nil_iff.1 hread.symm)
  rw [linesOfBytes, byteLines_last hbytes (lineFeed_notMem_encode h.noFeed), List.map_singleton,
    hread, chomp_append h (by simp)]

/-- **The lines of a program are read back from its bytes.** -/
theorem linesOfBytes_programBytes {lines : List (String × LineEnd)} {last : Option String}
    (hlines : ∀ line ∈ lines.map Prod.fst ++ last.toList, IsLine line)
    (hlast : ∀ line ∈ last, line ≠ "") :
    linesOfBytes (programBytes lines last) = lines.map Prod.fst ++ last.toList := by
  induction lines with
  | nil =>
      cases last with
      | none => rfl
      | some line => exact linesOfBytes_last (hlines line (by simp)) (hlast line rfl)
  | cons line lines ih =>
      obtain ⟨hline, hrest⟩ := List.forall_mem_cons.1 hlines
      have hbytes : programBytes (line :: lines) last =
          encode line.1 ++ line.2.bytes ++ programBytes lines last := by
        rw [programBytes, List.flatMap_cons, List.append_assoc, ← programBytes]
      rw [hbytes, linesOfBytes_line hline, ih hrest]
      rfl

end DryRun.Text

namespace DryRun.Machine

open Text

variable {α : Type} [Scalar α]

/-- **Reading bytes agrees with running lines.** Lines that are encoded, each with an end of its
own and the last one possibly without, are run as the lines themselves, and the report is the
same; and arbitrary bytes can be run in two parts, if the first part ends with a line feed. -/
theorem bytes_run_as_lines (m : Machine α) :
    (∀ (lines : List (String × LineEnd)) (last : Option String),
      (∀ line ∈ lines.map Prod.fst ++ last.toList, IsLine line) → (∀ line ∈ last, line ≠ "") →
        m.runBytes (programBytes lines last) = m.runLines (lines.map Prod.fst ++ last.toList) ∧
        (m.runBytes (programBytes lines last)).report =
          (m.runLines (lines.map Prod.fst ++ last.toList)).report) ∧
    (∀ a b : List UInt8, a.getLast? = some 0x0A →
      m.runBytes (a ++ b) = (m.runBytes a).runBytes b) := by
  constructor
  · intro lines last hlines hlast
    have hrun : m.runBytes (programBytes lines last) =
        m.runLines (lines.map Prod.fst ++ last.toList) := by
      rw [runBytes, linesOfBytes_programBytes hlines hlast]
    exact ⟨hrun, congrArg report hrun⟩
  · intro a b h
    rw [runBytes, linesOfBytes_append h, runLines_append]
    rfl

/-- A program with accents, with both line ends, with an empty line and with a last line that has
no end, and bytes that are no text around a line feed. -/
theorem bytes_run_as_lines_accents :
    ∃ m : Machine Float, build Config.standard = .ok m ∧
      m.runBytes
          (programBytes [("G1 X1 (fräsen)", .returnFeed), ("", .feed)] (some "G0 X2 (½ €)")) =
        m.runLines ["G1 X1 (fräsen)", "", "G0 X2 (½ €)"] ∧
      m.runBytes ([0xE4, 0xFF, 0x0A] ++ [0x80, 0x0D]) =
        (m.runBytes [0xE4, 0xFF, 0x0A]).runBytes [0x80, 0x0D] := by
  have hbuild : build (Config.standard : Config Float) =
      .ok ⟨Config.standard, State.start Config.standard⟩ := by
    have hfault : (Config.standard : Config Float).fault? = none := by decide +kernel
    rw [build, State.start?, hfault]
  obtain ⟨hlines, hparts⟩ := bytes_run_as_lines
    (⟨Config.standard, State.start Config.standard⟩ : Machine Float)
  refine ⟨_, hbuild, ?_, hparts _ _ rfl⟩
  refine (hlines [("G1 X1 (fräsen)", .returnFeed), ("", .feed)] (some "G0 X2 (½ €)") ?_ ?_).1
  · intro line hline
    simp only [List.map_cons, List.map_nil, Option.toList_some, List.cons_append, List.nil_append,
      List.mem_cons, List.not_mem_nil, or_false] at hline
    rcases hline with rfl | rfl | rfl
    · exact ⟨by decide, by decide⟩
    · exact ⟨by decide, by decide⟩
    · exact ⟨by decide, by decide⟩
  · simp

end DryRun.Machine
