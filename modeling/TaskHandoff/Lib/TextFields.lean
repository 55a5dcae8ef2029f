import TaskHandoff.Lib.JsText

/-! # Fields and numbers in a text

Fields that each end with a stop are what a split at the stop gives back. Decimal numbers are read
back in front of whatever is no digit.
-/

namespace TaskHandoff.TextFields

open JsText List

/-! ## Fields -/

def terminated (stop : UInt16) (fields : List Text) : Text := fields.flatMap (· ++ [stop])

theorem splitOn_terminated {stop : UInt16} {fields : List Text} (h : ∀ f ∈ fields, stop ∉ f)
    (last : Text) :
    (terminated stop fields ++ last).splitOn stop = fields ++ last.splitOn stop := by
  induction fields with
  | nil => rfl
  | cons f fields ih =>
    obtain ⟨hf, hfields⟩ := forall_mem_cons.mp h
    have hsplit : terminated stop (f :: fields) ++ last =
        f ++ stop :: (terminated stop fields ++ last) := by
      simp [terminated]
    rw [hsplit, splitOn_append_cons_self_of_not_mem hf, ih hfields, cons_append]

/-- What is behind a start. -/
def dropStart (start : String) (t : Text) : Option Text := (text start).isPrefixOf? t

def startsWith (start : String) (t : Text) : Bool := (text start).isPrefixOf t

theorem dropStart_append (start : String) (t : Text) : dropStart start (text start ++ t) = some t := by
  rw [dropStart]
  induction text start with
  | nil => rfl
  | cons c start ih => simp [isPrefixOf?, ih]

/-! ## Numbers -/

def isDigit (c : UInt16) : Bool := 0x30 ≤ c && c ≤ 0x39

def number (digits : Text) : Nat := digits.foldl (fun n c => 10 * n + (c.toNat - 0x30)) 0

/-- The number at the start of a text, and the text behind it. -/
def readNumber (t : Text) : Option (Nat × Text) :=
  if t.takeWhile isDigit = [] then none
  else some (number (t.takeWhile isDigit), t.dropWhile isDigit)

def decimalFrom : Nat → Nat → Text
  | 0, _ => []
  | fuel + 1, n =>
    (if n < 10 then [] else decimalFrom fuel (n / 10)) ++ [UInt16.ofNat (0x30 + n % 10)]

def decimal (n : Nat) : Text := decimalFrom (n + 1) n

theorem toNat_digit (n : Nat) : (UInt16.ofNat (0x30 + n % 10)).toNat = 0x30 + n % 10 := by
  rw [UInt16.toNat_ofNat']
  omega

theorem isDigit_digit (n : Nat) : isDigit (UInt16.ofNat (0x30 + n % 10)) = true := by
  simp only [isDigit, Bool.and_eq_true, decide_eq_true_eq, UInt16.le_iff_toNat_le, toNat_digit]
  constructor
  · exact Nat.le_add_right _ _
  · exact Nat.add_le_add_left (Nat.le_of_lt_succ (Nat.mod_lt n (by decide))) 0x30

theorem isDigit_decimalFrom (fuel n : Nat) : ∀ c ∈ decimalFrom fuel n, isDigit c = true := by
  induction fuel generalizing n with
  | zero => exact fun c hc => absurd hc not_mem_nil
  | succ fuel ih =>
    intro c hc
    rcases mem_append.mp hc with hc | hc
    · split at hc
      · cases hc
      · exact ih _ c hc
    · rw [mem_singleton.mp hc]
      exact isDigit_digit n

theorem number_decimalFrom {fuel n : Nat} (h : n < fuel) : number (decimalFrom fuel n) = n := by
  induction fuel generalizing n with
  | zero => cases h
  | succ fuel ih =>
    rw [decimalFrom, number, foldl_append, foldl_cons, toNat_digit, Nat.add_sub_cancel_left]
    split
    next hlt => simp [Nat.mod_eq_of_lt hlt]
    next hge =>
      have hrest := @ih (n / 10) (by omega)
      rw [number] at hrest
      rw [hrest]
      exact Nat.div_add_mod n 10

theorem readNumber_decimal (n : Nat) {rest : Text} (hrest : ∀ c ∈ rest.head?, isDigit c = false) :
    readNumber (decimal n ++ rest) = some (n, rest) := by
  have hall : ∀ c ∈ decimal n, isDigit c = true := isDigit_decimalFrom (n + 1) n
  have htake : (decimal n ++ rest).takeWhile isDigit = decimal n := by
    rw [takeWhile_append_of_pos hall]
    cases rest with
    | nil => exact append_nil _
    | cons c rest => simp [hrest c rfl]
  have hdrop : (decimal n ++ rest).dropWhile isDigit = rest := by
    rw [dropWhile_append_of_pos hall]
    cases rest with
    | nil => rfl
    | cons c rest => simp [hrest c rfl]
  have hne : decimal n ≠ [] := by simp [decimal, decimalFrom]
  rw [readNumber, htake, hdrop, if_neg hne, decimal, number_decimalFrom (Nat.lt_succ_self n)]

end TaskHandoff.TextFields
