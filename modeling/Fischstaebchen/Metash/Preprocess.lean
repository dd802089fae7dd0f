/-
  The preprocessor of metash (`scripts/metash`:
  `MetavarShellFileReader.accumulate_input_lines`, `do_parse_instruction` and
  `_preprocess_lines`).

  Lines that end with `!\`, or that stand between `!!merge` and `!!endmerge`, are joined;
  then each line is an instruction `<% keyword args %>` or a text line.

  * `preprocessLines_plain`: lines whose first character is neither `<` nor `!` are text
    lines.
-/
import Fischstaebchen.Metash.Reader

namespace Fischstaebchen

namespace Metash

/-! ## Strings -/

/-- `str.rstrip`. -/
def rstrip (s : CStr) : CStr := s.rdropWhile isSpace

/-- `str.strip`. -/
def strip (s : CStr) : CStr := rstrip (s.dropWhile isSpace)

/-- `str.lower`. -/
def lower (s : CStr) : CStr := s.map Char.toLower

/-- `str.split (None, 1)`: the first word, and what follows. -/
def splitFirst (s : CStr) : Option (CStr × Option CStr) :=
  let s := s.dropWhile isSpace
  let rest := (s.dropWhile fun c => !isSpace c).dropWhile isSpace
  if s = [] then none
  else some (s.takeWhile fun c => !isSpace c, if rest = [] then none else some rest)

/-! ## Joining lines -/

/-- The variables of `accumulate_input_lines`. -/
structure LineBuffer where
  mergelines : Bool
  lineBufferIdx : Option ℕ
  lineBuffer : List CStr

/-- Before the first line. -/
def LineBuffer.empty : LineBuffer := ⟨false, none, []⟩

/-- `kw_line`. -/
def kwLine (line : CStr) : Option CStr :=
  match strip line with
  | '!' :: '!' :: kw => some (lower kw)
  | _ => none

/-- The line without `!\` at its end; `!!\` does not count. -/
def continued (line : CStr) : Option CStr :=
  match line.reverse with
  | '\\' :: '!' :: '!' :: _ => none
  | '\\' :: '!' :: rest => some rest.reverse
  | _ => none

/-- A line of a buffer: what follows the bar. -/
def dropBar : CStr → CStr
  | '|' :: rest => rest
  | line => line

/-- The loop body of `accumulate_input_lines`. -/
def LineBuffer.add (b : LineBuffer) (lino : ℕ) (line : CStr) :
    Except ReaderError (LineBuffer × List (ℕ × CStr)) :=
  if kwLine line = some "merge".toList then
    if b.lineBufferIdx.isSome then .error (.valueError ⟨lino, line⟩)
    else .ok (⟨true, some lino, b.lineBuffer⟩, [])
  else
    match continued line, b.lineBufferIdx with
    | some _, some idx =>
      .ok (⟨b.mergelines, some idx,
        b.lineBuffer ++ [dropBar (rstrip ((strip line).dropLast.dropLast))]⟩, [])
    | some text, none => .ok (⟨b.mergelines, some lino, b.lineBuffer ++ [rstrip text]⟩, [])
    | none, some idx =>
      let isEnd := kwLine line = some "endmerge".toList
      let buffer := if isEnd then b.lineBuffer else b.lineBuffer ++ [dropBar (strip line)]
      if isEnd ∧ b.mergelines = false then .error .assertion
      else if isEnd ∨ b.mergelines = false then
        .ok (⟨false, none, []⟩, if buffer = [] then [] else [(idx, buffer.flatten)])
      else .ok (⟨true, some idx, buffer⟩, [])
    | none, none =>
      if kwLine line = some "endmerge".toList then .error (.valueError ⟨lino, line⟩)
      else .ok (b, [(lino, line)])

/-- After the last line. -/
def LineBuffer.close (b : LineBuffer) : Except ReaderError (List (ℕ × CStr)) :=
  if b.lineBuffer = [] then .ok []
  else
    match b.lineBufferIdx with
    | none => .error .assertion
    | some idx => .ok [(idx, b.lineBuffer.flatten)]

/-- `accumulate_input_lines`. -/
def accumulateInputLines : ℕ → List CStr → LineBuffer → Except ReaderError (List (ℕ × CStr))
  | _, [], b => b.close
  | lino, line :: lines, b =>
    match b.add lino line with
    | .error e => .error e
    | .ok (b, out) =>
      match accumulateInputLines (lino + 1) lines b with
      | .error e => .error e
      | .ok rest => .ok (out ++ rest)

/-! ## Instructions -/

/-- `INSTRUCTION_KEYWORDS`. -/
def instructionKeywords : List (String × Opcode) :=
  [("ifdef", .ifDefined), ("ifndef", .ifNotDefined), ("if", .if_), ("ifnot", .ifNot),
   ("bif", .ifBool), ("bifnot", .ifNotBool), ("elseif", .elseIf), ("else", .else_),
   ("endif", .endIf), ("undef", .undef), ("define", .define), ("weakdef", .defineWeak),
   ("blockdef", .defineBlock), ("weakblockdef", .defineBlockWeak), ("endef", .defineEnd),
   ("_", .echo), ("noread", .noread), ("read", .read), ("include", .include_),
   ("builtin", .builtin)]

/-- A `.` matches. -/
def oneLine (s : CStr) : Bool := !s.contains '\n'

/-- The last `%>` with a property of what is before it and after it. -/
def lastEnd (p : CStr → CStr → Bool) : CStr → CStr → Option (CStr × CStr)
  | _, [] => none
  | before, '%' :: '>' :: rest =>
    (lastEnd p (before ++ ['%', '>']) rest).or
      (if p before rest then some (before, rest) else none)
  | before, c :: rest => lastEnd p (before ++ [c]) rest

/-- `(?:\s+(?P<args>.*\S))(?P<suffix>\s*[%][>])(?P<remainder>.+)?$`. -/
def matchArgs (s : CStr) : Option (CStr × CStr) :=
  (lastEnd (fun before rest => rstrip before != [] && oneLine (rstrip before) && oneLine rest) []
    (s.dropWhile isSpace)).map fun r => (rstrip r.1, r.2)

/-- `(?P<suffix>\s*[%][>])(?P<remainder>.+)?$`. -/
def matchSuffix (s : CStr) : Option CStr :=
  match s.dropWhile isSpace with
  | '%' :: '>' :: rest => if oneLine rest then some rest else none
  | _ => none

/-- From `\S+` of the keyword on; the keyword is as long as possible. -/
def matchKeyword (start s : CStr) : Option (CStr × Option CStr × CStr) :=
  let word := s.takeWhile fun c => !isSpace c
  let rest := s.dropWhile fun c => !isSpace c
  if word = [] then none
  else
    ((matchArgs rest).map fun r => (start ++ word, some r.1, r.2)).or
      (((matchSuffix rest).map fun r => (start ++ word, none, r)).or
        ((lastEnd (fun before after => before != [] && oneLine (after ++ rest)) [] word).map
          fun r => (start ++ r.1, none, r.2 ++ rest)))

/-- `re_instruction`, from the keyword on. -/
def matchInstruction (s : CStr) : Option (CStr × Option CStr × CStr) :=
  match s with
  | '%' :: rest =>
    (matchKeyword ('%' :: rest.takeWhile isSpace) (rest.dropWhile isSpace)).or
      (matchKeyword [] s)
  | _ => matchKeyword [] s

/-- `re_instruction_keyword_fixup`. -/
def fixKeyword (keyword : CStr) : CStr := (lower keyword).filter fun c => c != '-' && !isSpace c

/-- `do_parse_instruction`. -/
def doParseInstruction (o : Origin) (line : CStr) : Except ReaderError (Option Instruction) :=
  match line.dropWhile isSpace with
  | '<' :: '%' :: rest =>
    match matchInstruction (rest.dropWhile isSpace) with
    | none => .ok none
    | some (keyword, args, remainder) =>
      let new (opcode : Opcode) (args : Option CStr) : Instruction :=
        ⟨opcode, args, line.takeWhile isSpace, remainder, fun _ h => List.mem_takeWhile_imp h⟩
      match fixKeyword keyword with
      -- `keyword[0]`
      | [] => .error .indexError
      | ['%'] => .error (.valueError o)
      | '%' :: name =>
        .ok (some (new .builtin
          (some (match args with | some args => name ++ ' ' :: args | none => name))))
      | keyword =>
        match instructionKeywords.find? fun k => k.1.toList == keyword with
        | none => .error (.keyError [keyword])
        | some k => .ok (some (new k.2 args))
  | _ => .ok none

/-- The loop body of `_preprocess_lines`. -/
def preprocessLine (lino : ℕ) (inputLine : CStr) : Except ReaderError InputLine :=
  let o : Origin := ⟨lino + 1, inputLine⟩
  let line := rstrip inputLine
  if line = [] then .ok (.text o [])
  else
    match doParseInstruction o line with
    | .error e => .error e
    | .ok (some i) => .ok (.instruction o i)
    | .ok none => .ok (.text o line)

/-- The loop of `_preprocess_lines`. -/
def preprocessAccumulated : List (ℕ × CStr) → Except ReaderError (List InputLine)
  | [] => .ok []
  | (lino, inputLine) :: rest =>
    match preprocessLine lino inputLine with
    | .error e => .error e
    | .ok line =>
      match preprocessAccumulated rest with
      | .error e => .error e
      | .ok lines => .ok (line :: lines)

/-- `_preprocess_lines`. -/
def preprocessLines (lines : List CStr) : Except ReaderError (List InputLine) :=
  match accumulateInputLines 0 lines LineBuffer.empty with
  | .error e => .error e
  | .ok lines => preprocessAccumulated lines

/-! ## Plain lines -/

/-- The first character of the line that is not whitespace is neither `<` nor `!`. -/
def StartsPlain (line : CStr) : Prop :=
  ∃ indent c rest, line = indent ++ c :: rest ∧ (∀ x ∈ indent, isSpace x = true) ∧
    isSpace c = false ∧ c ≠ '<' ∧ c ≠ '!'

/-- A text line. -/
def InputLine.IsText (line : InputLine) : Prop := ∃ o s, line = .text o s

theorem StartsPlain.append {line : CStr} (h : StartsPlain line) (s : CStr) :
    StartsPlain (line ++ s) := by
  obtain ⟨indent, c, rest, rfl, hindent, hc⟩ := h
  exact ⟨indent, c, rest ++ s, by simp, hindent, hc⟩

theorem StartsPlain.dropWhile {line : CStr} (h : StartsPlain line) :
    ∃ c rest, line.dropWhile isSpace = c :: rest ∧ isSpace c = false ∧ c ≠ '<' ∧ c ≠ '!' := by
  obtain ⟨indent, c, rest, rfl, hindent, hc⟩ := h
  refine ⟨c, rest, ?_, hc⟩
  rw [List.dropWhile_append_of_pos hindent, List.dropWhile_cons_of_neg (by simp [hc.1])]

/-- The whitespace at the end does not matter. -/
theorem StartsPlain.rstrip {line : CStr} (h : StartsPlain line) : StartsPlain (rstrip line) := by
  obtain ⟨indent, c, rest, rfl, hindent, hc⟩ := h
  refine ⟨indent, c, rest.rdropWhile isSpace, ?_, hindent, hc⟩
  rw [Metash.rstrip, List.rdropWhile, List.rdropWhile, List.reverse_append, List.reverse_cons,
    List.append_assoc, List.dropWhile_append]
  split
  · next hnil =>
    rw [List.isEmpty_iff.1 hnil, List.singleton_append,
      List.dropWhile_cons_of_neg (by simp [hc.1])]
    simp
  · simp

/-- What stands before a `!`. -/
theorem StartsPlain.of_append_bang {line s : CStr} (h : StartsPlain (line ++ '!' :: s)) :
    StartsPlain line := by
  obtain ⟨indent, c, rest, heq, hindent, hspace, hlt, hbang⟩ := h
  rcases List.append_eq_append_iff.1 heq with ⟨mid, hmid, htail⟩ | ⟨mid, hmid, htail⟩
  -- the `!` would belong to the indent, or be the first character after it
  · cases mid with
    | nil => exact absurd (List.cons.inj htail).1.symm hbang
    | cons x mid =>
      rw [List.cons_append] at htail
      have hx : isSpace '!' = true := by
        refine hindent '!' ?_
        rw [hmid, (List.cons.inj htail).1]
        exact List.mem_append_right _ List.mem_cons_self
      exact absurd hx (by decide)
  · cases mid with
    | nil => exact absurd (List.cons.inj htail).1 hbang
    | cons x mid =>
      rw [List.cons_append] at htail
      obtain ⟨rfl, -⟩ := List.cons.inj htail
      exact ⟨indent, c, mid, hmid, hindent, hspace, hlt, hbang⟩

theorem kwLine_plain {line : CStr} (h : StartsPlain line) : kwLine line = none := by
  obtain ⟨c, rest, hdrop, hc⟩ := h.dropWhile
  have hplain : StartsPlain (strip line) := by
    rw [strip, hdrop]
    exact StartsPlain.rstrip ⟨[], c, rest, rfl, by simp, hc⟩
  obtain ⟨c, rest, hdrop, -, -, hbang⟩ := hplain.dropWhile
  rw [kwLine]
  split
  · next kw hkw =>
    rw [hkw, List.dropWhile_cons_of_neg (by decide)] at hdrop
    exact absurd (List.cons.inj hdrop).1.symm hbang
  · rfl

theorem continued_eq_some {line text : CStr} (h : continued line = some text) :
    line = text ++ ['!', '\\'] := by
  rw [continued] at h
  split at h
  · cases h
  · next rest hrest =>
    obtain rfl := Option.some.inj h
    rw [← List.reverse_inj, hrest]
    simp
  · cases h

/-- The lines that are collected are plain. -/
def LineBuffer.IsPlain (b : LineBuffer) : Prop :=
  b.mergelines = false ∧
    (b.lineBufferIdx = none ∧ b.lineBuffer = [] ∨
      b.lineBufferIdx.isSome = true ∧ StartsPlain b.lineBuffer.flatten)

/-- A plain line adds to a plain buffer, or is yielded with it. -/
theorem LineBuffer.add_plain {b : LineBuffer} {line : CStr} (hb : b.IsPlain)
    (hline : StartsPlain line) (lino : ℕ) :
    ∃ b' out, b.add lino line = .ok (b', out) ∧ b'.IsPlain ∧ ∀ p ∈ out, StartsPlain p.2 := by
  obtain ⟨merge, idx, buffer⟩ := b
  obtain ⟨rfl, hbuf⟩ := hb
  rw [LineBuffer.add, kwLine_plain hline, if_neg (by simp)]
  cases hcont : continued line with
  | none =>
    rcases hbuf with ⟨rfl, rfl⟩ | ⟨hidx, hplain⟩
    · refine ⟨_, _, rfl, ⟨rfl, .inl ⟨rfl, rfl⟩⟩, ?_⟩
      rintro p hp
      rwa [List.mem_singleton.1 hp]
    · obtain ⟨idx, rfl⟩ := Option.isSome_iff_exists.1 hidx
      refine ⟨LineBuffer.empty, [(idx, (buffer ++ [dropBar (strip line)]).flatten)], ?_,
        ⟨rfl, .inl ⟨rfl, rfl⟩⟩, ?_⟩
      · simp [LineBuffer.empty]
      · rintro p hp
        rw [List.mem_singleton.1 hp, List.flatten_append]
        exact hplain.append _
  | some text =>
    rcases hbuf with ⟨rfl, rfl⟩ | ⟨hidx, hplain⟩
    · refine ⟨_, _, rfl, ⟨rfl, .inr ⟨rfl, ?_⟩⟩, by simp⟩
      rw [continued_eq_some hcont] at hline
      simpa using hline.of_append_bang.rstrip
    · obtain ⟨idx, rfl⟩ := Option.isSome_iff_exists.1 hidx
      refine ⟨_, _, rfl, ⟨rfl, .inr ⟨rfl, ?_⟩⟩, by simp⟩
      rw [List.flatten_append]
      exact hplain.append _

theorem accumulateInputLines_plain {lines : List CStr} (h : ∀ line ∈ lines, StartsPlain line)
    (lino : ℕ) {b : LineBuffer} (hb : b.IsPlain) :
    ∃ out, accumulateInputLines lino lines b = .ok out ∧ ∀ p ∈ out, StartsPlain p.2 := by
  induction lines generalizing lino b with
  | nil =>
    obtain ⟨merge, idx, buffer⟩ := b
    obtain ⟨-, ⟨rfl, rfl⟩ | ⟨hidx, hplain⟩⟩ := hb
    · exact ⟨[], rfl, by simp⟩
    · obtain ⟨idx, rfl⟩ := Option.isSome_iff_exists.1 hidx
      cases buffer with
      | nil => exact ⟨[], rfl, by simp⟩
      | cons line buffer => exact ⟨_, rfl, fun p hp => by rwa [List.mem_singleton.1 hp]⟩
  | cons line lines ih =>
    obtain ⟨b', out, hadd, hb', hout⟩ := b.add_plain hb (h line List.mem_cons_self) lino
    obtain ⟨rest, hrest, hplain⟩ :=
      ih (fun x hx => h x (List.mem_cons_of_mem _ hx)) (lino + 1) hb'
    refine ⟨out ++ rest, by rw [accumulateInputLines, hadd]; dsimp only; rw [hrest], ?_⟩
    intro p hp
    exact (List.mem_append.1 hp).elim (hout p) (hplain p)

theorem doParseInstruction_plain {line : CStr} (h : StartsPlain line) (o : Origin) :
    doParseInstruction o line = .ok none := by
  obtain ⟨c, rest, hdrop, -, hlt, -⟩ := h.dropWhile
  rw [doParseInstruction]
  split
  · next heq => exact absurd (List.cons.inj (hdrop.symm.trans heq)).1 hlt
  · rfl

theorem preprocessLine_plain {line : CStr} (h : StartsPlain line) (lino : ℕ) :
    ∃ text, preprocessLine lino line = .ok text ∧ text.IsText := by
  rw [preprocessLine]
  by_cases hnil : rstrip line = []
  · exact ⟨.text ⟨lino + 1, line⟩ [], by rw [if_pos hnil], _, _, rfl⟩
  · refine ⟨.text ⟨lino + 1, line⟩ (rstrip line), ?_, _, _, rfl⟩
    rw [if_neg hnil, doParseInstruction_plain h.rstrip]

/-- **Plain lines are text lines**: they are no instructions, and no lines are merged by
    an instruction. -/
theorem preprocessLines_plain {lines : List CStr} (h : ∀ line ∈ lines, StartsPlain line) :
    ∃ texts, preprocessLines lines = .ok texts ∧ ∀ text ∈ texts, text.IsText := by
  obtain ⟨out, hout, hplain⟩ :=
    accumulateInputLines_plain h 0 (b := LineBuffer.empty) ⟨rfl, .inl ⟨rfl, rfl⟩⟩
  rw [preprocessLines, hout]
  dsimp only
  clear hout
  induction out with
  | nil => exact ⟨[], rfl, by simp⟩
  | cons p out ih =>
    obtain ⟨text, htext, hp⟩ := preprocessLine_plain (hplain p List.mem_cons_self) p.1
    obtain ⟨texts, htexts, hrest⟩ := ih fun x hx => hplain x (List.mem_cons_of_mem _ hx)
    refine ⟨text :: texts, ?_, ?_⟩
    · rw [preprocessAccumulated, htext]
      dsimp only
      rw [htexts]
    · intro t ht
      exact (List.mem_cons.1 ht).elim (fun h => h ▸ hp) (hrest t)

end Metash

end Fischstaebchen
