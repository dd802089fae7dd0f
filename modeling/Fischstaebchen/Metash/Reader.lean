/-
  The file reader of metash (`scripts/metash`: `FileReaderInstruction`,
  `FileReaderIfBlock` and `MetavarFileReader._preprocess_and_expand_lines`).

  The input consists of instructions and text lines.  The reader keeps the variables
  and a stack of blocks, one for each `if` whose `endif` has not been read.

  * `Reader.run_append`: lines are read one after another.
  * `IfBlock.update_else`, `IfBlock.update_endif`, `IfBlock.update_elseif`: what an
    instruction does to its block.
-/
import Fischstaebchen.Lib.Split
import Fischstaebchen.Strutil.Compare

namespace Fischstaebchen

namespace Metash

/-! ## Instructions and variables -/

/-- The opcodes of `FileReaderInstruction`. -/
inductive Opcode
  | ifDefined
  | ifNotDefined
  | if_
  | ifNot
  | ifBool
  | ifNotBool
  | elseIf
  | else_
  | endIf
  | undef
  | define
  | defineWeak
  | defineBlock
  | defineBlockWeak
  | defineEnd
  | echo
  | noread
  | read
  | include_
  | builtin
deriving DecidableEq

/-- `INSTRUCTION_BLOCK_END_MAP`: the opcodes that may follow in the same block. -/
def Opcode.blockEnd : Opcode → Option (List Opcode)
  | .ifDefined | .ifNotDefined | .if_ | .ifNot | .ifBool | .ifNotBool =>
    some [.else_, .elseIf, .endIf]
  | .elseIf => some [.else_, .endIf]
  | .else_ => some [.endIf]
  | .defineBlock | .defineBlockWeak => some [.defineEnd]
  | .noread => some [.read]
  | _ => none

/-- Whitespace, as `str.split` and `\s` have it. -/
def isSpace (c : Char) : Bool :=
  (9 ≤ c.toNat && c.toNat ≤ 13) || (28 ≤ c.toNat && c.toNat ≤ 32) || c.toNat = 0x85 ||
    c.toNat = 0xa0 || c.toNat = 0x1680 || (0x2000 ≤ c.toNat && c.toNat ≤ 0x200a) ||
    c.toNat = 0x2028 || c.toNat = 0x2029 || c.toNat = 0x202f || c.toNat = 0x205f ||
    c.toNat = 0x3000

/-- `FileReaderInstruction`; the indent consists of whitespace. -/
structure Instruction where
  opcode : Opcode
  args : Option CStr
  lineIndent : CStr
  lineRemainder : CStr
  indent_space : ∀ c ∈ lineIndent, isSpace c = true

/-- There may be no indent. -/
theorem isSpace_of_mem_nil : ∀ c ∈ ([] : CStr), isSpace c = true := by
  rintro c ⟨⟩

/-- Where an input line comes from: its number, and its text. -/
structure Origin where
  lino : ℕ
  inputLine : CStr

/-- A preprocessed line. -/
inductive InputLine
  | instruction (o : Origin) (i : Instruction)
  | text (o : Origin) (line : CStr)

/-- The value of a variable; the exit codes of the shell are ints. -/
inductive MetaValue
  | str (s : CStr)
  | int (n : ℤ)
deriving DecidableEq

/-- `VarsDict`: a fork has copies of all variables. -/
abbrev VarsDict := CStr → Option MetaValue

inductive ReaderError
  | badInstruction (o : Origin) (msg : CStr)
  | notImplemented (opcode : Opcode)
  | missingEndif
  | attributeError
  | indexError
  | assertion
  | keyError (names : List CStr)
  | valueError (o : Origin)
  | shellMacroNotDefined (name : CStr) (o : Origin)
  | recursion
  | badArgument (arg : CStr)
  | fileNotFound (file : CStr)

/-! ## Conditions -/

section
variable (vars : VarsDict) (o : Origin)

/-- `varname_arg`. -/
def varnameArg (arg : CStr) : CStr := arg.dropWhile (· == '!')

def negated (arg : CStr) : Bool := (arg.length - (varnameArg arg).length) % 2 == 1

/-- `varname`: what stands before the first `=`, without a colon at its end. -/
def varname (arg : CStr) : CStr :=
  let name := (varnameArg arg).takeWhile (· != '=')
  if name.getLast? = some ':' then name.dropLast else name

/-- `has_default`. -/
def hasDefault (arg : CStr) : Bool := (varnameArg arg).contains '='

def defaultValue (arg : CStr) : CStr := ((varnameArg arg).dropWhile (· != '=')).drop 1

/-- The values that are false. -/
def isFalse (svalue : CStr) : Bool :=
  (["", "n", "0", "no", "false", "disabled"].map String.toList).contains
    (svalue.map Char.toLower)

/-- Whether the block is blind for a value of the variable. -/
def blindFor (arg : CStr) : MetaValue → Except ReaderError Bool
  | .int _ => .error .attributeError
  | .str svalue => .ok (isFalse svalue != negated arg)

/-- `_parse_conditional`. -/
def parseConditional (arg : CStr) : Except ReaderError Bool :=
  if varname arg = [] then .error (.badInstruction o "bad name".toList)
  else
    match vars (varname arg) with
    | some v => blindFor arg v
    | none =>
      if hasDefault arg then blindFor arg (.str (defaultValue arg))
      else .error (.badInstruction o ("not defined: ".toList ++ varname arg))

/-- `_parse_if_instruction`. -/
def parseIfInstruction (args : Option CStr) : Except ReaderError Bool :=
  match args with
  | none => .error .attributeError
  | some args =>
    match Lib.runs isSpace args with
    | [arg] => parseConditional vars o arg
    | _ => .error (.badInstruction o
        "exactly one arg accepted (only partially implemented)".toList)

end

/-! ## Blocks -/

/-- `FileReaderIfBlock`. -/
structure IfBlock where
  allowedOps : List Opcode
  isBlind : Option Bool
  isClosed : Option Bool
  wasMatched : Bool
  forcedBlind : Bool

/-- A new block. -/
def IfBlock.new (forcedBlind : Bool) : IfBlock := ⟨[.if_], none, none, false, forcedBlind⟩

def IfBlock.accepts (b : IfBlock) (i : Instruction) : Bool := b.allowedOps.contains i.opcode

/-- The end of `update`. -/
def IfBlock.finishUpdate (b : IfBlock) (i : Instruction) : IfBlock :=
  { b with
    isBlind := if b.forcedBlind then some true else b.isBlind
    allowedOps := (i.opcode.blockEnd).getD [] }

/-- `update`. -/
def IfBlock.update (b : IfBlock) (vars : VarsDict) (o : Origin) (i : Instruction) :
    Except ReaderError IfBlock :=
  if b.accepts i = false then .error (.badInstruction o "unexpected".toList)
  else
    match i.opcode with
    | .endIf =>
      if b.isClosed ≠ some false then .error .assertion
      else if i.args.getD [] ≠ [] then .error (.badInstruction o "no args accepted".toList)
      else .ok ({ b with isBlind := none, isClosed := some true }.finishUpdate i)
    | .else_ =>
      if b.isClosed ≠ some false then .error .assertion
      else if i.args.getD [] ≠ [] then .error (.badInstruction o "no args accepted".toList)
      else .ok ({ b with isBlind := some b.wasMatched }.finishUpdate i)
    | .if_ =>
      if b.isClosed ≠ none then .error .assertion
      else
        match parseIfInstruction vars o i.args with
        | .error e => .error e
        | .ok blind =>
          .ok ({ b with isBlind := some blind, wasMatched := !blind,
                        isClosed := some false }.finishUpdate i)
    | .elseIf =>
      match parseIfInstruction vars o i.args with
      | .error e => .error e
      | .ok blind =>
        .ok ((if b.wasMatched then { b with isBlind := some true }
          else { b with isBlind := some blind, wasMatched := !blind }).finishUpdate i)
    | opcode => .error (.notImplemented opcode)

/-! ## The reader -/

/-- A reader: what is yielded for a text line, and how a builtin is expanded, which
    may depend on a global state. -/
structure Reader (σ τ : Type) where
  isMetavarName : CStr → Bool
  yieldText : VarsDict → Origin → CStr → τ
  expandBuiltin : σ → VarsDict → Origin → Instruction →
    Except ReaderError (σ × VarsDict × List τ)

/-- The state of a reader. -/
structure ReaderState (σ : Type) where
  global : σ
  vars : VarsDict
  stack : List IfBlock

/-- What is done for an input line. -/
inductive Action (τ : Type)
  | yield (results : List τ)
  | taken
  | passed (line : InputLine)

/-- What an action yields. -/
def Action.results {τ : Type} : Action τ → List τ
  | yield results => results
  | taken | passed _ => []

/-- The block on top of the stack is blind. -/
def isBlindTop (stack : List IfBlock) : Bool :=
  match stack with
  | [] => false
  | b :: _ => b.isBlind.getD false

section
variable {σ τ : Type} (R : Reader σ τ)

/-- `op_define` and `op_define_weak`. -/
def defineVar (vars : VarsDict) (o : Origin) (i : Instruction) : Except ReaderError VarsDict :=
  match i.args with
  | none => .error .attributeError
  | some args =>
    let name := (args.dropWhile isSpace).takeWhile fun c => !isSpace c
    let value := ((args.dropWhile isSpace).dropWhile fun c => !isSpace c).dropWhile isSpace
    if name = [] then .error (.badInstruction o "no args".toList)
    else if R.isMetavarName name = false then .error (.badInstruction o "invalid name".toList)
    -- `value[0]`
    else if value = [] then .error .indexError
    else
      let value :=
        if value.head? = value.getLast? ∧ 1 < value.length ∧ value.head? = some '"' then
          value.tail.dropLast else value
      if (vars name).isSome then
        if i.opcode = .define then .error (.badInstruction o "already defined".toList)
        else .ok vars
      else .ok fun key => if key = name then some (.str value) else vars key

/-- `op_undef`: the loop over the names. -/
def undefVars (o : Origin) : List CStr → VarsDict → Except ReaderError VarsDict
  | [], vars => .ok vars
  | name :: names, vars =>
    if (vars name).isSome then
      undefVars o names fun key => if key = name then none else vars key
    else .error (.badInstruction o (name ++ " not defined".toList))

/-- An instruction that does not belong to a block. -/
def execInstruction (st : ReaderState σ) (o : Origin) (i : Instruction) :
    Except ReaderError (ReaderState σ × Action τ) :=
  match i.opcode with
  | .define | .defineWeak =>
    match defineVar R st.vars o i with
    | .error e => .error e
    | .ok vars => .ok ({ st with vars := vars }, .taken)
  | .undef =>
    match i.args with
    | none => .error .attributeError
    | some args =>
      if Lib.runs isSpace args = [] then .error (.badInstruction o "no args".toList)
      else
        match undefVars o (Lib.runs isSpace args) st.vars with
        | .error e => .error e
        | .ok vars => .ok ({ st with vars := vars }, .taken)
  | .builtin =>
    if i.args.getD [] = [] then .error (.badInstruction o "no builtin specified".toList)
    else
      match R.expandBuiltin st.global st.vars o i with
      | .error e => .error e
      | .ok (global, vars, results) =>
        .ok ({ st with global := global, vars := vars }, .yield results)
  | opcode => .error (.notImplemented opcode)

/-- One round of the loop of `_preprocess_and_expand_lines`. -/
def Reader.step (st : ReaderState σ) : InputLine → Except ReaderError (ReaderState σ × Action τ)
  | .text o line =>
    if isBlindTop st.stack then .ok (st, .passed (.text o line))
    else .ok (st, .yield [R.yieldText st.vars o line])
  | .instruction o i =>
    if i.opcode = .if_ then
      match (IfBlock.new (isBlindTop st.stack)).update st.vars o i with
      | .error e => .error e
      | .ok b => .ok ({ st with stack := b :: st.stack }, .taken)
    else
      match st.stack with
      | [] => execInstruction R st o i
      | b :: stack =>
        if b.accepts i then
          match b.update st.vars o i with
          | .error e => .error e
          | .ok b =>
            .ok ({ st with
              stack := if b.isClosed = some true then stack else b :: stack }, .taken)
        else if b.isBlind.getD false then .ok (st, .passed (.instruction o i))
        else execInstruction R st o i

/-- The loop. -/
def Reader.run : List InputLine → ReaderState σ →
    Except ReaderError (ReaderState σ × List (Action τ))
  | [], st => .ok (st, [])
  | line :: lines, st =>
    match R.step st line with
    | .error e => .error e
    | .ok (st, action) =>
      match Reader.run lines st with
      | .error e => .error e
      | .ok (st, actions) => .ok (st, action :: actions)

/-- `_preprocess_and_expand_lines`. -/
def Reader.preprocessAndExpandLines (global : σ) (vars : VarsDict) (lines : List InputLine) :
    Except ReaderError (ReaderState σ × List (Action τ)) :=
  match R.run lines ⟨global, vars, []⟩ with
  | .error e => .error e
  | .ok (st, actions) => if st.stack = [] then .ok (st, actions) else .error .missingEndif

/-! ## Reading lines one after another -/

variable {R}

theorem Reader.run_cons {line : InputLine} {st st' : ReaderState σ} {action : Action τ}
    (h : R.step st line = .ok (st', action)) (lines : List InputLine) :
    R.run (line :: lines) st =
      (R.run lines st').map fun r => (r.1, action :: r.2) := by
  rw [Reader.run, h]
  dsimp only
  cases R.run lines st' <;> rfl

/-- **Lines are read one after another.** -/
theorem Reader.run_append {lines : List InputLine} {st st' : ReaderState σ}
    {actions : List (Action τ)} (h : R.run lines st = .ok (st', actions))
    (lines' : List InputLine) :
    R.run (lines ++ lines') st =
      (R.run lines' st').map fun r => (r.1, actions ++ r.2) := by
  induction lines generalizing st actions with
  | nil =>
    obtain ⟨rfl, rfl⟩ := Prod.mk.inj (Except.ok.inj h)
    rw [List.nil_append]
    cases R.run lines' st <;> rfl
  | cons line lines ih =>
    rw [Reader.run] at h
    cases hstep : R.step st line with
    | error e => rw [hstep] at h; cases h
    | ok r =>
      obtain ⟨mid, action⟩ := r
      rw [hstep] at h
      dsimp only at h
      cases hrun : R.run lines mid with
      | error e => rw [hrun] at h; cases h
      | ok r =>
        obtain ⟨st₂, actions₂⟩ := r
        rw [hrun] at h
        obtain ⟨rfl, rfl⟩ := Prod.mk.inj (Except.ok.inj h)
        rw [List.cons_append, Reader.run_cons hstep, ih hrun]
        cases R.run lines' st₂ <;> rfl

/-- An error is not left. -/
theorem Reader.run_append_error {lines : List InputLine} {st : ReaderState σ} {e : ReaderError}
    (h : R.run lines st = .error e) (lines' : List InputLine) :
    R.run (lines ++ lines') st = .error e := by
  induction lines generalizing st with
  | nil => cases h
  | cons line lines ih =>
    rw [List.cons_append]
    rw [Reader.run] at h ⊢
    cases hstep : R.step st line with
    | error e' => rw [hstep] at h; exact h
    | ok r =>
      obtain ⟨mid, action⟩ := r
      rw [hstep] at h
      dsimp only at h ⊢
      cases hrun : R.run lines mid with
      | error e' =>
        rw [hrun] at h
        cases h
        rw [ih hrun]
      | ok r => rw [hrun] at h; cases h

end

end Metash

end Fischstaebchen
