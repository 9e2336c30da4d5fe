import ClassAudit.Text.Hexadecimal

/-!
# Texts that end at a delimiter

A text ends at the first character that it cannot hold (`append_cons_inj`), and several texts are
known from the whole if what separates them begins with such a character (`intercalate_inj`).

This is used for numbers above all.  They are shown by their digits in base ten or sixteen, which
determine the number (`toDigits_injective`).  Every digit is a letter or a numeral
(`isAlphanum_of_mem_toDigits`), so they end at any other character (`toDigits_append_cons_inj`).
-/

namespace ClassAudit.Text

variable {base : Nat}

/-! ## Delimiters -/

/-- A text in front of a character that it does not hold ends at this character. -/
theorem append_cons_inj {stop : Char} {front other behind others : List Char}
    (hfront : stop ∉ front) (hother : stop ∉ other)
    (htext : front ++ stop :: behind = other ++ stop :: others) :
    front = other ∧ behind = others := by
  induction front generalizing other with
  | nil =>
    cases other with
    | nil => exact ⟨rfl, (List.cons.inj htext).2⟩
    | cons first rest => exact absurd (List.mem_cons.mpr (.inl (List.cons.inj htext).1)) hother
  | cons first rest ih =>
    cases other with
    | nil => exact absurd (List.mem_cons.mpr (.inl (List.cons.inj htext).1.symm)) hfront
    | cons next later =>
      obtain ⟨rfl, hrest⟩ := List.cons.inj htext
      obtain ⟨rfl, hbehind⟩ := ih (List.not_mem_of_not_mem_cons hfront)
        (List.not_mem_of_not_mem_cons hother) hrest
      exact ⟨rfl, hbehind⟩

/-- Parts that do not hold the first character of what separates them are known from the whole. -/
theorem intercalate_inj {stop : Char} {later : List Char} {first second : List (List Char)}
    (hfirst : ∀ part ∈ first, stop ∉ part) (hsecond : ∀ part ∈ second, stop ∉ part)
    (hsome : first ≠ []) (hother : second ≠ [])
    (htext : (stop :: later).intercalate first = (stop :: later).intercalate second) :
    first = second := by
  induction first generalizing second with
  | nil => exact absurd rfl hsome
  | cons part rest ih =>
    obtain ⟨other, others, rfl⟩ := List.exists_cons_of_ne_nil hother
    rw [List.forall_mem_cons] at hfirst hsecond
    cases rest with
    | nil =>
      cases others with
      | nil =>
        rw [List.intercalate_singleton, List.intercalate_singleton] at htext
        rw [htext]
      | cons next rest =>
        rw [List.intercalate_singleton, List.intercalate_cons_cons] at htext
        exact absurd (by simp [htext]) hfirst.1
    | cons next rest =>
      cases others with
      | nil =>
        rw [List.intercalate_singleton, List.intercalate_cons_cons] at htext
        exact absurd (by simp [← htext]) hsecond.1
      | cons following last =>
        rw [List.intercalate_cons_cons, List.intercalate_cons_cons, List.append_assoc,
          List.append_assoc] at htext
        obtain ⟨rfl, hbehind⟩ := append_cons_inj hfirst.1 hsecond.1 htext
        have hrest := ih hfirst.2 hsecond.2 (List.cons_ne_nil _ _) (List.cons_ne_nil _ _)
          (List.append_cancel_left hbehind)
        rw [hrest]

/-! ## Digits -/

/-- Below sixteen, every number has a character of its own. -/
theorem digitChar_inj {first second : Nat} (hfirst : first < 16) (hsecond : second < 16)
    (hdigit : first.digitChar = second.digitChar) : first = second := by
  have hall : ∀ first second : Fin 16,
      first.val.digitChar = second.val.digitChar → first = second := by decide
  exact Fin.val_eq_of_eq (hall ⟨first, hfirst⟩ ⟨second, hsecond⟩ hdigit)

theorem isAlphanum_digitChar {number : Nat} (hnumber : number < 16) :
    number.digitChar.isAlphanum := by
  have hall : ∀ number : Fin 16, number.val.digitChar.isAlphanum := by decide
  exact hall ⟨number, hnumber⟩

/-- A number is shown by those digits only that stand for it. -/
theorem toDigits_injective (hbase : 1 < base) (hsmall : base ≤ 16) :
    Function.Injective (Nat.toDigits base) := by
  intro first
  -- the last digit is the remainder, and those before it show the quotient
  induction first using Nat.strongRecOn with
  | ind first ih =>
    intro second hdigits
    have hlonger (number : Nat) (only last : Char) :
        [only] ≠ Nat.toDigits base number ++ [last] := by
      intro hsingle
      have hlength := congrArg List.length hsingle
      have hsome : 0 < (Nat.toDigits base number).length := Nat.length_toDigits_pos
      rw [List.length_append, List.length_singleton, List.length_singleton] at hlength
      omega
    rw [Nat.toDigits_eq_if hbase, Nat.toDigits_eq_if hbase (n := second)] at hdigits
    split at hdigits <;> split at hdigits
    · exact digitChar_inj (by omega) (by omega) (List.singleton_inj.mp hdigits)
    · exact absurd hdigits (hlonger _ _ _)
    · exact absurd hdigits.symm (hlonger _ _ _)
    · obtain ⟨hfront, hlast⟩ := List.append_inj' hdigits rfl
      have hquotient : first / base = second / base :=
        ih (first / base) (Nat.div_lt_self (by omega) hbase) hfront
      have hremainder : first % base = second % base := by
        have hbelow (number : Nat) : number % base < 16 :=
          Nat.lt_of_lt_of_le (Nat.mod_lt number (by omega)) hsmall
        exact digitChar_inj (hbelow first) (hbelow second) (List.singleton_inj.mp hlast)
      calc first = base * (first / base) + first % base := (Nat.div_add_mod first base).symm
        _ = base * (second / base) + second % base := by rw [hquotient, hremainder]
        _ = second := Nat.div_add_mod second base

theorem isAlphanum_of_mem_toDigits (hbase : 1 < base) (hsmall : base ≤ 16) {number : Nat}
    {char : Char} (hchar : char ∈ Nat.toDigits base number) : char.isAlphanum := by
  induction number using Nat.strongRecOn with
  | ind number ih =>
    rw [Nat.toDigits_eq_if hbase] at hchar
    split at hchar
    · rw [List.mem_singleton.mp hchar]
      exact isAlphanum_digitChar (by omega)
    · rcases List.mem_append.mp hchar with hfront | hlast
      · exact ih (number / base) (Nat.div_lt_self (by omega) hbase) hfront
      · rw [List.mem_singleton.mp hlast]
        exact isAlphanum_digitChar (Nat.lt_of_lt_of_le (Nat.mod_lt number (by omega)) hsmall)

/-- Digits end where a character stands that is none. -/
theorem toDigits_append_cons_inj (hbase : 1 < base) (hsmall : base ≤ 16) {first second : Nat}
    {stop : Char} {behind others : List Char} (hstop : stop.isAlphanum = false)
    (htext : Nat.toDigits base first ++ stop :: behind =
      Nat.toDigits base second ++ stop :: others) :
    first = second ∧ behind = others := by
  have hnone (number : Nat) : stop ∉ Nat.toDigits base number := by
    intro hdigit
    rw [isAlphanum_of_mem_toDigits hbase hsmall hdigit] at hstop
    cases hstop
  obtain ⟨hdigits, hbehind⟩ := append_cons_inj (hnone first) (hnone second) htext
  exact ⟨toDigits_injective hbase hsmall hdigits, hbehind⟩

end ClassAudit.Text
