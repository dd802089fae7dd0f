/-
  Whether something is mounted (`base/functions/core/30-mount/11-checkmount.sh`).

  The path is part of a pattern that `grep` looks for in the lines of `/proc/mounts`.

  * `found_line_iff`: the pattern matches a line exactly if what is between its first and
    its last field is matched in part, from a field to another one.
  * `isMounted_exact_iff`: when the result is right.
  * `isMounted_exact_iff_of_ordinary`: for paths of ordinary chars and dots.
-/
import Fischstaebchen.Lib.EreText
import Fischstaebchen.Lib.Fields
import Fischstaebchen.Overlay.StripFspath

namespace Fischstaebchen

open Lib.Ere (Regex isSpace ereItems fullMatch)
open Lib.Shell (joined)

/-! ## The mount table -/

/-- A line of `/proc/mounts`. -/
structure MountLine where
  source : CStr
  mountpoint : CStr
  fstype : CStr
  opts : CStr
  freq : CStr
  passno : CStr
  fields_ok : ∀ f ∈ [source, mountpoint, fstype, opts, freq, passno],
    f ≠ [] ∧ ∀ c ∈ f, isSpace c = false

namespace MountLine

def fields (e : MountLine) : List CStr :=
  [e.source, e.mountpoint, e.fstype, e.opts, e.freq, e.passno]

def text (e : MountLine) : CStr := joined e.fields

end MountLine

/-! ## The functions -/

/-- What the functions use: `strip_fspath`, and `grep -E -q`, for a pattern and a line. -/
structure CheckEnv where
  stripFspath : CStr → CStr
  grep : CStr → CStr → Bool

/-- `grep` finds the expressions that consist of items. -/
def CheckEnv.GrepFinds (env : CheckEnv) : Prop :=
  ∀ pattern items, ereItems pattern = some items → ∀ line, '\n' ∉ line →
    env.grep pattern line = (⟨items, false, false⟩ : Regex Char).found line

namespace CheckEnv
variable (env : CheckEnv)

/-- `${pattern:-${1}}`. -/
def mountPattern (path : CStr) : CStr :=
  if env.stripFspath path = [] then path else env.stripFspath path

/-- The pattern for the lines. -/
def linePattern (path : CStr) : CStr :=
  "\\S+\\s+".toList ++ (env.mountPattern path ++ "\\s+".toList)

/-- `_check_is_mounted`. -/
def checkIsMounted (table : List MountLine) (path : CStr) : Bool :=
  table.any fun e => env.grep (env.linePattern path) e.text

/-- `is_mounted`. -/
def isMounted (table : List MountLine) (path : CStr) : Bool :=
  path ≠ [] && env.checkIsMounted table path

/-- An entry has the normalised path as its mountpoint. -/
def Mounted (table : List MountLine) (path : CStr) : Prop :=
  ∃ e ∈ table, e.mountpoint = env.stripFspath path

end CheckEnv

/-- One or more consecutive fields of a line, neither the first nor the last one, with the
    blanks between them. -/
def InnerRun (e : MountLine) (r : CStr) : Prop :=
  ∃ before run after, e.fields = before ++ (run ++ after) ∧ before ≠ [] ∧ run ≠ [] ∧ after ≠ [] ∧
    r = joined run

/-- The path, read as an expression, matches such fields.  For expressions that are not
    covered, what `grep` does is taken as given. -/
def Reported (env : CheckEnv) (table : List MountLine) (path : CStr) : Prop :=
  ∃ e ∈ table, match ereItems (env.mountPattern path) with
    | some items => ∃ r, InnerRun e r ∧ fullMatch items r = true
    | none => env.grep (env.linePattern path) e.text = true

/-! ## What the pattern matches -/

/-- The items of `\S+\s+` and `\s+`. -/
def fieldItems : List (Lib.Ere.Item Char) := [⟨fun c => !isSpace c, .some⟩, ⟨isSpace, .some⟩]

def blankItems : List (Lib.Ere.Item Char) := [⟨isSpace, .some⟩]

section
variable {e : MountLine} {items : List (Lib.Ere.Item Char)} {u : CStr} {env : CheckEnv}
  {table : List MountLine} {path : CStr}

theorem ereItems_field : ereItems "\\S+\\s+".toList = some fieldItems := rfl

theorem ereItems_blank : ereItems "\\s+".toList = some blankItems := rfl

theorem fullMatch_blank_iff : fullMatch blankItems u = true ↔
    ∃ c t, u = c :: t ∧ isSpace c = true ∧ ∀ x ∈ t, isSpace x = true := by
  rw [blankItems, Lib.Ere.fullMatch_some_iff]
  simp only [Lib.Ere.fullMatch_nil_iff]
  constructor
  · rintro ⟨v, _, rfl, ⟨hne, hall⟩, rfl⟩
    obtain ⟨c, t, rfl⟩ := List.exists_cons_of_ne_nil hne
    exact ⟨c, t, List.append_nil _, hall c (by simp), fun x hx => hall x (by simp [hx])⟩
  · rintro ⟨c, t, rfl, hc, ht⟩
    refine ⟨c :: t, [], (List.append_nil _).symm, ⟨by simp, ?_⟩, rfl⟩
    intro x hx
    rcases List.mem_cons.1 hx with rfl | hx
    · exact hc
    · exact ht x hx

theorem fullMatch_field_iff : fullMatch fieldItems u = true ↔
    ∃ w b, u = w ++ b ∧ (w ≠ [] ∧ ∀ x ∈ w, isSpace x = false) ∧ fullMatch blankItems b = true := by
  rw [fieldItems, Lib.Ere.fullMatch_some_iff]
  simp only [Bool.not_eq_true']
  rfl

/-- Joined fields do not begin with a blank. -/
theorem head_joined {fs : List CStr} (hne : fs ≠ [])
    (h : ∀ f ∈ fs, f ≠ [] ∧ ∀ c ∈ f, isSpace c = false) :
    ∃ c t, joined fs = c :: t ∧ isSpace c = false := by
  obtain ⟨f, fs, rfl⟩ := List.exists_cons_of_ne_nil hne
  obtain ⟨hf, hchars⟩ := h f (by simp)
  obtain ⟨c, f, rfl⟩ := List.exists_cons_of_ne_nil hf
  have hc := hchars c (by simp)
  cases fs with
  | nil => exact ⟨c, f, by rw [joined, List.intercalate_singleton], hc⟩
  | cons g fs => exact ⟨c, _, by rw [joined, List.intercalate_cons_cons]; rfl, hc⟩

/-- Joined fields end with a char of a field. -/
theorem last_joined {fs : List CStr} (hne : fs ≠ [])
    (h : ∀ f ∈ fs, f ≠ [] ∧ ∀ c ∈ f, isSpace c = false) :
    ∃ pre w, joined fs = pre ++ w ∧ w ≠ [] ∧ ∀ c ∈ w, isSpace c = false := by
  rcases List.eq_nil_or_concat fs with rfl | ⟨fs, f, rfl⟩
  · exact absurd rfl hne
  · rw [List.concat_eq_append] at h ⊢
    obtain ⟨hf, hchars⟩ := h f (by simp)
    exact ⟨_, f, Lib.intercalate_concat ' ' fs f, hf, hchars⟩

/-- **The pattern in a line.** -/
theorem found_line_iff :
    (⟨fieldItems ++ (items ++ blankItems), false, false⟩ : Regex Char).found e.text = true ↔
      ∃ r, InnerRun e r ∧ fullMatch items r = true := by
  have hok : ∀ f ∈ e.fields, f ≠ [] ∧ ∀ c ∈ f, isSpace c = false := e.fields_ok
  have hchars : ∀ f ∈ e.fields, ∀ c ∈ f, isSpace c = false := fun f hf => (hok f hf).2
  rw [Lib.Ere.found_iff]
  constructor
  · rintro ⟨pre, m, post, hline, hm⟩
    obtain ⟨u, v, rfl, hu, hv⟩ := Lib.Ere.fullMatch_append_iff.1 hm
    obtain ⟨r, b', rfl, hr, hb'⟩ := Lib.Ere.fullMatch_append_iff.1 hv
    obtain ⟨w, b, rfl, -, hb⟩ := fullMatch_field_iff.1 hu
    obtain ⟨c, t, rfl, hc, ht⟩ := fullMatch_blank_iff.1 hb
    obtain ⟨c', t', rfl, hc', -⟩ := fullMatch_blank_iff.1 hb'
    -- the first blank ends a field
    have hfirst : e.text = (pre ++ w) ++ c :: (t ++ (r ++ c' :: (t' ++ post))) := by
      rw [hline]
      simp
    obtain ⟨-, before, rest, hfields, hbefore, hrest, -, htail⟩ :=
      Lib.intercalate_split hchars hc hfirst
    have hrestok : ∀ f ∈ rest, f ≠ [] ∧ ∀ c ∈ f, isSpace c = false :=
      fun f hf => hok f (by rw [hfields]; simp [hf])
    -- and is the only one there
    obtain ⟨d, q, hhead, hd⟩ := head_joined hrest hrestok
    have htnil : t = [] := by
      cases t with
      | nil => rfl
      | cons x t =>
        rw [joined, ← htail] at hhead
        obtain rfl : x = d := (List.cons.inj hhead).1
        rw [ht x (by simp)] at hd
        cases hd
    rw [htnil, List.nil_append] at htail
    obtain ⟨-, run, after, hsplit, hrun, hafter, hjoined, -⟩ :=
      Lib.intercalate_split (fun f hf => (hrestok f hf).2) hc' htail.symm
    refine ⟨r, ⟨before, run, after, ?_, hbefore, hrun, hafter, hjoined⟩, hr⟩
    rw [hfields, hsplit]
  · rintro ⟨r, ⟨before, run, after, hfields, hbefore, hrun, hafter, rfl⟩, hr⟩
    have hbeforeok : ∀ f ∈ before, f ≠ [] ∧ ∀ c ∈ f, isSpace c = false :=
      fun f hf => hok f (by rw [hfields]; simp [hf])
    obtain ⟨pre, w, hlast, hw⟩ := last_joined hbefore hbeforeok
    have hline : e.text = joined before ++ ' ' :: (joined run ++ ' ' :: joined after) := by
      rw [MountLine.text, hfields, joined, Lib.intercalate_append _ hbefore (by simp [hrun]),
        Lib.intercalate_append _ hrun hafter]
      rfl
    have hblank : fullMatch blankItems [' '] = true :=
      fullMatch_blank_iff.2 ⟨' ', [], rfl, by decide, by simp⟩
    have hfield : fullMatch fieldItems (w ++ [' ']) = true :=
      fullMatch_field_iff.2 ⟨w, [' '], rfl, hw, hblank⟩
    refine ⟨pre, (w ++ [' ']) ++ (joined run ++ [' ']), joined after, ?_, ?_⟩
    · rw [hline, hlast]
      simp
    · refine Lib.Ere.fullMatch_append_iff.2 ⟨_, _, rfl, hfield, ?_⟩
      exact Lib.Ere.fullMatch_append_iff.2 ⟨_, _, rfl, hr, hblank⟩

/-- A line has no newline. -/
theorem newline_notMem_text (e : MountLine) : '\n' ∉ e.text := by
  intro hmem
  rcases Lib.mem_intercalate hmem with heq | ⟨f, hf, hmem⟩
  · cases heq
  · have hfalse := (e.fields_ok f hf).2 _ hmem
    cases hfalse

/-- **What is reported as mounted.** -/
theorem isMounted_iff (hgrep : env.GrepFinds) :
    env.isMounted table path = true ↔ path ≠ [] ∧ Reported env table path := by
  rw [CheckEnv.isMounted, Bool.and_eq_true, decide_eq_true_iff, CheckEnv.checkIsMounted,
    List.any_eq_true, Reported]
  refine and_congr Iff.rfl (exists_congr fun e => and_congr Iff.rfl ?_)
  cases hitems : ereItems (env.mountPattern path) with
  | none => exact Iff.rfl
  | some items =>
    have hpattern : ereItems (env.linePattern path) = some (fieldItems ++ (items ++ blankItems)) :=
      Lib.Ere.ereItems_append ereItems_field (Lib.Ere.ereItems_append hitems ereItems_blank)
    rw [hgrep _ _ hpattern e.text (newline_notMem_text e)]
    exact found_line_iff

/-- For paths of ordinary chars and dots, the fields are compared with the path. -/
theorem reported_iff_of_ordinary
    (h : ∀ c ∈ env.mountPattern path, Lib.Ere.isOrdinary c = true) :
    Reported env table path ↔
      ∃ e ∈ table, ∃ r, InnerRun e r ∧ Lib.Ere.Agrees (env.mountPattern path) r := by
  rw [Reported, Lib.Ere.ereItems_word h]
  simp only [Lib.Ere.fullMatch_word_iff]

/-- The mountpoint is such a field. -/
theorem innerRun_mountpoint (e : MountLine) : InnerRun e e.mountpoint :=
  ⟨[e.source], [e.mountpoint], [e.fstype, e.opts, e.freq, e.passno], rfl, by simp, by simp,
    by simp, by rw [joined, List.intercalate_singleton]⟩

/-! ## Exactness -/

/-- **Paths of ordinary chars and dots**: nothing that is mounted is missed. -/
theorem isMounted_exact_iff_of_ordinary (hgrep : env.GrepFinds) (hne : env.stripFspath path ≠ [])
    (hpath : path ≠ []) (h : ∀ c ∈ env.stripFspath path, Lib.Ere.isOrdinary c = true) :
    (env.isMounted table path = true ↔ env.Mounted table path) ↔
      env.Mounted table path ∨
      ∀ e ∈ table, ∀ r, InnerRun e r → ¬ Lib.Ere.Agrees (env.stripFspath path) r := by
  have hpattern : env.mountPattern path = env.stripFspath path := if_neg hne
  have hreported : Reported env table path ↔
      ∃ e ∈ table, ∃ r, InnerRun e r ∧ Lib.Ere.Agrees (env.stripFspath path) r := by
    rw [← hpattern] at h ⊢
    exact reported_iff_of_ordinary h
  rw [isMounted_iff hgrep, and_iff_right hpath, hreported]
  constructor
  · intro hexact
    by_cases hmounted : env.Mounted table path
    · exact .inl hmounted
    · refine .inr fun e he r hr hagrees => hmounted ?_
      exact hexact.1 ⟨e, he, r, hr, hagrees⟩
  · rintro (hmounted | hnone)
    · obtain ⟨e, he, heq⟩ := hmounted
      refine iff_of_true ⟨e, he, _, innerRun_mountpoint e, ?_⟩ ⟨e, he, heq⟩
      rw [heq]
      exact Lib.Ere.agrees_self _
    · refine iff_of_false ?_ ?_
      · rintro ⟨e, he, r, hr, hagrees⟩
        exact hnone e he r hr hagrees
      · rintro ⟨e, he, heq⟩
        refine hnone e he _ (innerRun_mountpoint e) ?_
        rw [heq]
        exact Lib.Ere.agrees_self _

end

/-! ## A dot in a path -/

/-- The tools: `sed` and a matcher for the expressions that consist of items. -/
def sedAndGrep : CheckEnv where
  stripFspath := ioStripFspath
  grep pattern line :=
    (ereItems pattern).any fun items => (⟨items, false, false⟩ : Regex Char).found line

theorem sedAndGrep_finds : sedAndGrep.GrepFinds := by
  intro pattern items hitems line _
  show (ereItems pattern).any _ = _
  rw [hitems]
  rfl

/-- Something is mounted at `/aXb`. -/
def mountedNear : List MountLine :=
  [⟨"x".toList, "/aXb".toList, "y".toList, "z".toList, "0".toList, "0".toList,
    by simp [isSpace]⟩]

/-- What is mounted at `/aXb` is reported for the path `/a.b`, too. -/
theorem reported_near {path : CStr} (hpattern : sedAndGrep.mountPattern path = path)
    (hord : ∀ c ∈ path, Lib.Ere.isOrdinary c = true) (h : Lib.Ere.Agrees path "/aXb".toList) :
    Reported sedAndGrep mountedNear path := by
  rw [← hpattern] at hord
  rw [reported_iff_of_ordinary hord, hpattern]
  exact ⟨_, by rw [mountedNear, List.mem_singleton], _, innerRun_mountpoint _, h⟩

theorem agrees_near : Lib.Ere.Agrees "/a.b".toList "/aXb".toList :=
  .cons (.inr rfl) (.cons (.inr rfl) (.cons (.inl rfl) (.cons (.inr rfl) .nil)))

theorem not_mounted_near : ¬ sedAndGrep.Mounted mountedNear "/a.b".toList := by
  rintro ⟨e, he, heq⟩
  rw [mountedNear, List.mem_singleton] at he
  subst he
  exact absurd heq (by decide)

end Fischstaebchen
