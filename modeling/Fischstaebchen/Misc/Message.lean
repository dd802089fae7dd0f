/-
  Message format strings (`common/message.c`).

  `message_get_color_fmt_str` hands the indentation to `_join_str` as its
  separator, so that it is put between the pieces of the format string and not
  before them.

  * `messageGetColorFmtStr_ensures`: the string that is built.
  * `indentIsPrefix_iff`: the indentation is in front of the unindented string
    only if there is none.
-/
import Fischstaebchen.Strutil.JoinAlloc

namespace Fischstaebchen

open Lib

/-- `MSG_COLOR_DEFAULT`. -/
def msgColorDefault : CharStr := ⟨[0x1B, 0x5B, 0x30, 0x6D], by simp, by simp⟩

/-- The literals `""`, `" "` and `"\n"`. -/
def emptyLit : CharStr := ⟨[], by simp, by simp⟩

def blankLit : CharStr := ⟨[0x20], by simp, by simp⟩

def newlineLit : CharStr := ⟨[0x0A], by simp, by simp⟩

/-- The arguments of `message_get_color_fmt_str`. -/
structure FmtArgs where
  headerColor : Option CharStr
  coloredHeaderText : Option CharStr
  nocolorHeaderText : Option CharStr
  fmtColor : Option CharStr
  fmt : Option CharStr
  fmtEnd : Option CharStr

/-- `num_indent`; `MSG_INDENT_LEVEL * 3` is an `int`, whose overflow is undefined. -/
def numIndent (msgIndentLevel : ℤ) : Option ℕ :=
  if msgIndentLevel > 0 then
    if msgIndentLevel * 3 < 2 ^ 31 then some (msgIndentLevel * 3).toNat else none
  else some 0

/-- `hdr`, which is NULL if it is empty. -/
def messageHdr (msgNocolor : ℤ) (args : FmtArgs) : Option CharStr :=
  let hdr :=
    if msgNocolor ≠ 0 ∧ args.nocolorHeaderText ≠ none then args.nocolorHeaderText
    else args.coloredHeaderText
  if charsOrEmpty hdr = [] then none else hdr

/-- The string in `indent`, which is truncated if there is nothing to print. -/
def messageIndent (msgNocolor : ℤ) (args : FmtArgs) (numIndent : ℕ) : List UInt8 :=
  if messageHdr msgNocolor args = none ∧ args.fmt = none then []
  else List.replicate numIndent 0x20

/-- What is joined. -/
def messagePieces (msgNocolor : ℤ) (args : FmtArgs) : List CharStr :=
  let hdr := messageHdr msgNocolor args
  let hdrStr := hdr.getD emptyLit
  let msgFmtStr := args.fmt.getD emptyLit
  let blank := if hdr = none ∨ msgFmtStr.chars = [] then emptyLit else blankLit
  if msgNocolor ≠ 0 then [hdrStr, blank, msgFmtStr, args.fmtEnd.getD newlineLit]
  else
    [args.headerColor.getD msgColorDefault, hdrStr, msgColorDefault, blank,
      args.fmtColor.getD msgColorDefault, msgFmtStr, msgColorDefault,
      args.fmtEnd.getD newlineLit]

/-- `message_get_color_fmt_str`, with the settings `MSG_NOCOLOR` and
    `MSG_INDENT_LEVEL`. -/
def messageGetColorFmtStr (msgNocolor msgIndentLevel : ℤ) (args : FmtArgs) :
    Alloc (Option (List UInt8)) := do
  let numIndent ← defined (numIndent msgIndentLevel)
  joinStr (messageIndent msgNocolor args numIndent)
    ((messagePieces msgNocolor args).map CharStr.chars)

section
variable {refuses : Prop} {msgNocolor : ℤ} {args : FmtArgs} {n k : ℕ}

/-! ## The format string -/

/-- The format string with an indentation of `numIndent` blanks. -/
def messageFmtStr (msgNocolor : ℤ) (args : FmtArgs) (numIndent : ℕ) : List UInt8 :=
  (messageIndent msgNocolor args numIndent).intercalate
    ((messagePieces msgNocolor args).map CharStr.chars)

/-- **`message_get_color_fmt_str`** puts the indentation between the pieces. -/
theorem messageGetColorFmtStr_ensures {msgIndentLevel : ℤ} (hk : numIndent msgIndentLevel = some k)
    (hsize : (messageFmtStr msgNocolor args k).length + 1 < sizeMax / 4) :
    Ensures refuses (messageGetColorFmtStr msgNocolor msgIndentLevel args)
      (Joined refuses (messageFmtStr msgNocolor args k)) := by
  refine Ensures.bind (ensures_defined hk rfl) fun numIndent heq => ?_
  subst heq
  refine joinStr_ensures hsize (noNul_intercalate ?_ _)
  rw [messageIndent]
  split_ifs
  · exact List.not_mem_nil
  · intro h
    have := List.eq_of_mem_replicate h
    simp at this

theorem length_messageIndent (msgNocolor : ℤ) (args : FmtArgs) (k : ℕ) :
    (messageIndent msgNocolor args k).length = 0 ∨
      (messageIndent msgNocolor args k).length = k := by
  rw [messageIndent]
  split_ifs
  · exact .inl List.length_nil
  · exact .inr List.length_replicate

theorem messageIndent_zero (msgNocolor : ℤ) (args : FmtArgs) :
    messageIndent msgNocolor args 0 = [] :=
  List.eq_nil_of_length_eq_zero ((length_messageIndent msgNocolor args 0).elim id id)

theorem length_messageFmtStr (msgNocolor : ℤ) (args : FmtArgs) (k : ℕ) :
    (messageFmtStr msgNocolor args k).length = (messageFmtStr msgNocolor args 0).length +
      ((messagePieces msgNocolor args).length - 1) * (messageIndent msgNocolor args k).length := by
  rw [messageFmtStr, messageFmtStr, length_intercalate, length_intercalate, messageIndent_zero,
    List.length_map, List.length_nil, Nat.mul_zero, Nat.add_zero]

/-- There are several separators. -/
theorem length_messagePieces (msgNocolor : ℤ) (args : FmtArgs) :
    3 < (messagePieces msgNocolor args).length := by
  unfold messagePieces
  dsimp only
  split_ifs <;> simp

/-- The indentation is between the pieces, several times or not at all. -/
theorem messageFmtStr_ne (msgNocolor : ℤ) (args : FmtArgs) (hk : k ≠ 0) :
    messageFmtStr msgNocolor args k ≠
      List.replicate k 0x20 ++ messageFmtStr msgNocolor args 0 := by
  intro heq
  have hlen := congrArg List.length heq
  rw [length_messageFmtStr, List.length_append, List.length_replicate] at hlen
  have hcount := length_messagePieces msgNocolor args
  rcases length_messageIndent msgNocolor args k with hindent | hindent
  · rw [hindent] at hlen
    omega
  · rw [hindent] at hlen
    have hmany : 3 * k ≤ ((messagePieces msgNocolor args).length - 1) * k :=
      Nat.mul_le_mul_right k (by omega)
    omega

/-! ## The indentation -/

theorem numIndent_natCast (h : numIndent n = some k) : k = 3 * n := by
  rw [numIndent] at h
  split_ifs at h
  · have := Option.some.inj h
    omega
  · have := Option.some.inj h
    omega

/-- Without refused memory, the string that is built at level `n` is `3 * n`
    blanks and the one that is built at level 0. -/
def IndentIsPrefix (msgNocolor : ℤ) (args : FmtArgs) (n : ℕ) : Prop :=
  ∃ str, Ensures False (messageGetColorFmtStr msgNocolor 0 args) (· = some str) ∧
    Ensures False (messageGetColorFmtStr msgNocolor n args)
      (· = some (List.replicate (3 * n) 0x20 ++ str))

theorem indentIsPrefix_zero (hsize : (messageFmtStr msgNocolor args 0).length + 1 < sizeMax / 4) :
    IndentIsPrefix msgNocolor args 0 := by
  have hjoined : Ensures False (messageGetColorFmtStr msgNocolor 0 args) _ :=
    joined_granted (messageGetColorFmtStr_ensures rfl hsize)
  exact ⟨_, hjoined, hjoined⟩

theorem not_indentIsPrefix (hn : n ≠ 0)
    (hsize : (messageFmtStr msgNocolor args (3 * n)).length + 1 < sizeMax / 4) :
    ¬ IndentIsPrefix msgNocolor args n := by
  rintro ⟨str, hzero, hlevel⟩
  cases hnum : numIndent n with
  | none =>
    obtain ⟨r, a, hrun, -⟩ := hlevel (fun _ => true) (.inr fun _ => rfl)
    rw [messageGetColorFmtStr, hnum] at hrun
    cases hrun
  | some k =>
    obtain rfl := numIndent_natCast hnum
    have hsize₀ : (messageFmtStr msgNocolor args 0).length + 1 < sizeMax / 4 := by
      rw [length_messageFmtStr] at hsize
      omega
    have hstr := ensures_unique hzero
      (joined_granted (messageGetColorFmtStr_ensures (k := 0) rfl hsize₀))
    have hindented := ensures_unique hlevel
      (joined_granted (messageGetColorFmtStr_ensures hnum hsize))
    rw [Option.some.inj hstr] at hindented
    exact messageFmtStr_ne msgNocolor args (by omega) (Option.some.inj hindented).symm

/-- **The indentation is a prefix** exactly at level 0, where there is none. -/
theorem indentIsPrefix_iff (msgNocolor : ℤ) (args : FmtArgs) (n : ℕ)
    (hsize : (messageFmtStr msgNocolor args (3 * n)).length + 1 < sizeMax / 4) :
    IndentIsPrefix msgNocolor args n ↔ n = 0 := by
  constructor
  · intro h
    by_contra hn
    exact not_indentIsPrefix hn hsize h
  · rintro rfl
    exact indentIsPrefix_zero hsize

/-- `"%s"` under the header `"!"`. -/
theorem indentIsPrefix_message :
    IndentIsPrefix 1 ⟨none, some ⟨[0x21], by simp, by simp⟩, none, none,
      some ⟨[0x25, 0x73], by simp, by simp⟩, none⟩ 0 :=
  (indentIsPrefix_iff _ _ 0 (by
    simp [messageFmtStr, messageIndent, messagePieces, messageHdr, charsOrEmpty, blankLit,
      newlineLit, sizeMax])).2 rfl

/-- The same one level deeper. -/
theorem not_indentIsPrefix_message :
    ¬ IndentIsPrefix 1 ⟨none, some ⟨[0x21], by simp, by simp⟩, none, none,
      some ⟨[0x25, 0x73], by simp, by simp⟩, none⟩ 1 :=
  not_indentIsPrefix one_ne_zero (by
    simp [messageFmtStr, messageIndent, messagePieces, messageHdr, charsOrEmpty, blankLit,
      newlineLit, sizeMax, List.replicate_succ])

end

end Fischstaebchen
