import ClassAudit.Proofs.Text.Delimiters
import ClassAudit.Text.Outline
import Mathlib.Tactic.SplitIfs

/-!
# Quoted texts are self-delimiting and stay on their line

A text between quotes may hold quotes, backslashes and anything that looks like an escape.  It can
still be read back, and it is known where it ends: `Quoted.quote_append_inj` says so for any choice
of the characters that are written by their numbers.

## Strategy

`Quoted.Writes` lists the three ways in which a character can be written, without regard to which of
them is taken.  No two forms of these begin the same text unless they are one form of one character
(`Writes.append_inj`), and none begins with a quote (`Writes.ne_quote`), so the first quote that
stands by itself is the one behind the text (`body_append_quote_inj`).

None of the forms holds a control character either (`Writes.visible`).  With this an outline is
shown on one line as soon as its words are, whatever its texts hold
(`Outline.Plain.oneLine_inline`).
-/

namespace ClassAudit.Text

/-- A control character of ASCII. -/
def IsControl (char : Char) : Prop :=
  char.toNat < 0x20 ∨ char.toNat = 0x7F

instance (char : Char) : Decidable (IsControl char) :=
  inferInstanceAs (Decidable (char.toNat < 0x20 ∨ char.toNat = 0x7F))

theorem not_isControl_of_isAlphanum {char : Char} (hchar : char.isAlphanum) : ¬ IsControl char := by
  have hnone : ∀ code : Fin 128, code.val < 0x20 ∨ code.val = 0x7F →
      (Char.ofNat code.val).isAlphanum = false := by decide
  intro hcontrol
  have hsmall : char.toNat < 128 := by
    unfold IsControl at hcontrol
    omega
  have hother := hnone ⟨char.toNat, hsmall⟩ hcontrol
  rw [Char.ofNat_toNat, hchar] at hother
  cases hother

namespace Quoted

/-! ## How a character is written between quotes -/

/-- The characters that are written by a letter behind a backslash, each with its letter. -/
def lettered : List (Char × Char) :=
  [('\x00', '0'), ('\t', 't'), ('\n', 'n'), ('\r', 'r'), ('"', '"'), ('\\', '\\')]

theorem lettered_inj {first second letter : Char} (hfirst : (first, letter) ∈ lettered)
    (hsecond : (second, letter) ∈ lettered) : first = second := by
  have hall : ∀ one ∈ lettered, ∀ other ∈ lettered, one.2 = other.2 → one.1 = other.1 := by decide
  exact hall _ hfirst _ hsecond rfl

theorem lettered_ne {char letter : Char} (hlisted : (char, letter) ∈ lettered) : letter ≠ 'u' := by
  have hall : ∀ one ∈ lettered, one.2 ≠ 'u' := by decide
  exact hall _ hlisted

/-- A character is written between quotes as it is, by its letter or by its number. -/
inductive Writes : Char → List Char → Prop where
  | plain {char : Char} (hvisible : ¬ IsControl char) (hquote : char ≠ '"')
      (hbackslash : char ≠ '\\') : Writes char [char]
  | lettered {char letter : Char} (hlisted : (char, letter) ∈ lettered) :
      Writes char ['\\', letter]
  | numbered {char : Char} : Writes char (numbered char)

variable {hidden : Char → Bool}

/-- Every character is written in one of these ways. -/
theorem writes_escape (hidden : Char → Bool) (char : Char) :
    Writes char (escape hidden char) := by
  have hvisible (hgraphic : ¬ (char < ' ' ∨ char = '\x7f')) : ¬ IsControl char := by
    intro hcontrol
    refine hgraphic (hcontrol.imp (fun hsmall => ?_) fun hdelete => ?_)
    · exact UInt32.lt_iff_toNat_lt.mpr hsmall
    · exact Char.toNat_inj.mp hdelete
  unfold escape
  split_ifs with h0 ht hn hr hquote hbackslash hgraphic
  · exact .lettered (by simp [lettered, h0])
  · exact .lettered (by simp [lettered, ht])
  · exact .lettered (by simp [lettered, hn])
  · exact .lettered (by simp [lettered, hr])
  · exact .lettered (by simp [lettered, hquote])
  · exact .lettered (by simp [lettered, hbackslash])
  · exact .numbered
  · exact .plain (hvisible hgraphic) hquote hbackslash
  · exact .numbered
  · exact .plain (hvisible hgraphic) hquote hbackslash

/-- Whatever follows them, two forms that begin alike are one form of one character. -/
theorem Writes.append_inj {first second : Char} {form other behind others : List Char}
    (hfirst : Writes first form) (hsecond : Writes second other)
    (htext : form ++ behind = other ++ others) : first = second ∧ behind = others := by
  cases hfirst with
  | plain _ _ hfirst =>
    cases hsecond with
    | plain _ _ _ => exact List.cons.inj htext
    | lettered _ => exact absurd (List.cons.inj htext).1 hfirst
    | numbered => exact absurd (List.cons.inj htext).1 hfirst
  | lettered hfirst =>
    cases hsecond with
    | plain _ _ hsecond => exact absurd (List.cons.inj htext).1.symm hsecond
    | lettered hsecond =>
      obtain ⟨rfl, hbehind⟩ := List.cons.inj (List.cons.inj htext).2
      exact ⟨lettered_inj hfirst hsecond, hbehind⟩
    | numbered => exact absurd (List.cons.inj (List.cons.inj htext).2).1 (lettered_ne hfirst)
  | numbered =>
    cases hsecond with
    | plain _ _ hsecond => exact absurd (List.cons.inj htext).1.symm hsecond
    | lettered hsecond =>
      exact absurd (List.cons.inj (List.cons.inj htext).2).1.symm (lettered_ne hsecond)
    | numbered =>
      have hdigits : Nat.toDigits 16 first.toNat ++ '\x7d' :: behind =
          Nat.toDigits 16 second.toNat ++ '\x7d' :: others := by
        simpa [Quoted.numbered, Hexadecimal.number] using htext
      obtain ⟨hnumber, hbehind⟩ :=
        toDigits_append_cons_inj (by decide) (by decide) (by decide) hdigits
      exact ⟨Char.toNat_inj.mp hnumber, hbehind⟩

/-- No character is written by what begins with a quote. -/
theorem Writes.ne_quote {char : Char} {form behind others : List Char} (hform : Writes char form) :
    form ++ behind ≠ '"' :: others := by
  intro htext
  cases hform with
  | plain _ hquote _ => exact hquote (List.cons.inj htext).1
  | lettered _ => exact absurd (List.cons.inj htext).1 (by decide)
  | numbered => exact absurd (List.cons.inj htext).1 (by decide)

/-- Nothing that a character is written by is a control character. -/
theorem Writes.visible {char : Char} {form : List Char} (hform : Writes char form) :
    ∀ shown ∈ form, ¬ IsControl shown := by
  cases hform with
  | plain hvisible _ _ => simpa using hvisible
  | lettered hlisted =>
    have hall : ∀ one ∈ Quoted.lettered, ¬ IsControl one.2 := by decide
    simpa using ⟨by decide, hall _ hlisted⟩
  | numbered =>
    have hdigits : ∀ shown ∈ Nat.toDigits 16 char.toNat, ¬ IsControl shown := fun shown hshown =>
      not_isControl_of_isAlphanum (isAlphanum_of_mem_toDigits (by decide) (by decide) hshown)
    have hopening : ∀ shown ∈ ['\\', 'u', '\x7b'], ¬ IsControl shown := by
      simp only [List.forall_mem_cons]
      exact ⟨by decide, by decide, by decide, List.forall_mem_nil _⟩
    have hclosing : ∀ shown ∈ ['\x7d'], ¬ IsControl shown :=
      List.forall_mem_singleton.mpr (by decide)
    rw [Quoted.numbered, Hexadecimal.number, List.forall_mem_append, List.forall_mem_append]
    exact ⟨⟨hopening, hdigits⟩, hclosing⟩

/-! ## Quoted texts -/

/-- The quote behind a text is the first one that stands by itself. -/
theorem body_append_quote_inj {first second behind others : List Char}
    (htext : body hidden first ++ '"' :: behind = body hidden second ++ '"' :: others) :
    first = second ∧ behind = others := by
  induction first generalizing second with
  | nil =>
    cases second with
    | nil => exact ⟨rfl, (List.cons.inj htext).2⟩
    | cons char rest =>
      rw [body, body, List.flatMap_cons, List.append_assoc] at htext
      exact absurd htext.symm (writes_escape hidden char).ne_quote
  | cons char rest ih =>
    cases second with
    | nil =>
      rw [body, body, List.flatMap_cons, List.append_assoc] at htext
      exact absurd htext (writes_escape hidden char).ne_quote
    | cons next later =>
      rw [body, body, List.flatMap_cons, List.flatMap_cons, List.append_assoc, List.append_assoc]
        at htext
      obtain ⟨rfl, hrest⟩ :=
        (writes_escape hidden char).append_inj (writes_escape hidden next) htext
      obtain ⟨rfl, hbehind⟩ := ih hrest
      exact ⟨rfl, hbehind⟩

theorem toList_quote (text : String) :
    (quote hidden text).toList = '"' :: (body hidden text.toList ++ ['"']) := by
  rw [quote, String.toList_ofList]

/-- What is quoted can be told from what stands behind it. -/
theorem quote_append_inj {first second : String} {behind others : List Char}
    (htext : (quote hidden first).toList ++ behind = (quote hidden second).toList ++ others) :
    first = second ∧ behind = others := by
  simp only [toList_quote, List.cons_append, List.append_assoc, List.nil_append,
    List.cons.injEq, true_and] at htext
  obtain ⟨hchars, hbehind⟩ := body_append_quote_inj htext
  exact ⟨String.toList_inj.mp hchars, hbehind⟩

theorem visible_quote (text : String) :
    ∀ shown ∈ (quote hidden text).toList, ¬ IsControl shown := by
  intro shown hshown
  simp only [toList_quote, List.mem_cons, List.mem_append, List.not_mem_nil, or_false] at hshown
  rcases hshown with rfl | hbody | rfl
  · decide
  · obtain ⟨char, -, hform⟩ := List.mem_flatMap.mp hbody
    exact (writes_escape hidden char).visible shown hform
  · decide

end Quoted

/-! ## Outlines on one line -/

/-- A text without control characters, which does not leave its line. -/
def OneLine (text : String) : Prop :=
  ∀ shown ∈ text.toList, ¬ IsControl shown

instance (text : String) : Decidable (OneLine text) :=
  List.decidableBAll (fun shown => ¬ IsControl shown) text.toList

@[simp] theorem oneLine_append {front back : String} :
    OneLine (front ++ back) ↔ OneLine front ∧ OneLine back := by
  simp [OneLine, or_imp, forall_and]

theorem oneLine_intercalate {separator : String} {parts : List String}
    (hseparator : OneLine separator) (hparts : ∀ part ∈ parts, OneLine part) :
    OneLine (separator.intercalate parts) := by
  induction parts with
  | nil => simp [OneLine]
  | cons part rest ih =>
    rw [List.forall_mem_cons] at hparts
    obtain ⟨hpart, hrest⟩ := hparts
    cases rest with
    | nil => rwa [String.intercalate_singleton]
    | cons next later =>
      rw [String.intercalate_cons_cons, oneLine_append, oneLine_append]
      exact ⟨⟨hpart, hseparator⟩, ih hrest⟩

theorem oneLine_number (number : Nat) : OneLine (toString number) := by
  intro shown hshown
  rw [Nat.toString_eq_ofList_toDigits, String.toList_ofList] at hshown
  exact not_isControl_of_isAlphanum (isAlphanum_of_mem_toDigits (by decide) (by decide) hshown)

namespace Outline

/-- The words, labels and names of an outline do not leave their line.  Nothing is asked of the
texts between quotes. -/
inductive Plain : Outline → Prop where
  | word {text : String} (htext : OneLine text) : Plain (.word text)
  | quoted {text : String} : Plain (.quoted text)
  | labelled {label : String} {value : Outline} (hlabel : OneLine label) (hvalue : Plain value) :
      Plain (.labelled label value)
  | group {name : String} {bracket : Bracket} {members : List Outline} (hname : OneLine name)
      (hmembers : ∀ member ∈ members, Plain member) : Plain (.group name bracket members)

theorem plain_number (value : Nat) : (number value).Plain :=
  .word (oneLine_number value)

theorem plain_fields {name : String} {members : List (String × Outline)} (hname : OneLine name)
    (hmembers : ∀ member ∈ members, OneLine member.1 ∧ member.2.Plain) :
    (fields name members).Plain := by
  refine .group hname fun outline houtline => ?_
  obtain ⟨member, hmember, rfl⟩ := List.mem_map.mp houtline
  obtain ⟨hlabel, hvalue⟩ := hmembers member hmember
  exact .labelled hlabel hvalue

/-- A plain outline is shown on one line. -/
theorem Plain.oneLine_inline {outline : Outline} (hplain : Plain outline)
    (hidden : Char → Bool) : OneLine (outline.inline hidden) := by
  induction hplain with
  | word htext => rwa [inline]
  | quoted =>
    rw [inline]
    exact Quoted.visible_quote _
  | labelled hlabel _ ih =>
    simp only [inline, oneLine_append]
    exact ⟨⟨hlabel, by decide⟩, ih⟩
  | @group name bracket members hname hmembers ih =>
    have hbracket :
        OneLine bracket.opening ∧ OneLine bracket.padding ∧ OneLine bracket.closing := by
      cases bracket <;> decide
    obtain ⟨hopening, hpadding, hclosing⟩ := hbracket
    rw [inline]
    split
    · simp only [oneLine_append]
      exact ⟨⟨hname, hopening⟩, hclosing⟩
    · simp only [oneLine_append]
      refine ⟨⟨⟨⟨⟨hname, hopening⟩, hpadding⟩, ?_⟩, hpadding⟩, hclosing⟩
      refine oneLine_intercalate (by decide) fun part hpart => ?_
      obtain ⟨member, hmember, rfl⟩ := List.mem_map.mp hpart
      exact ih member hmember

end Outline

end ClassAudit.Text
