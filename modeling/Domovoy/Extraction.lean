/-
Formatted extraction from a string of bytes, as streams have it in the classic locale:
words, and decimal numbers within the range of the type they are read into.
-/
import Mathlib.Data.BitVec
import Mathlib.Data.List.Chain
import Mathlib.Data.List.TakeWhile

namespace Extraction

/-- Blank, or one of the control characters from tab to carriage return. -/
def isSpace (c : UInt8) : Bool :=
  c = 32 || (9 ≤ c && c ≤ 13)

def isDigit (c : UInt8) : Bool :=
  48 ≤ c && c ≤ 57

/-- The number that a string of digits stands for. -/
def value (digits : List UInt8) : Nat :=
  digits.foldl (fun n c => 10 * n + (c.toNat - 48)) 0

/-- The next word and what is behind it. -/
def word (input : List UInt8) : Option (List UInt8 × List UInt8) :=
  let input := input.dropWhile isSpace
  if input = [] then none
  else some (input.takeWhile (!isSpace ·), input.dropWhile (!isSpace ·))

/-- Whether a minus is next, and what is behind the sign. -/
def sign : List UInt8 → Bool × List UInt8
  | [] => (false, [])
  | c :: rest =>
      if c = 45 then (true, rest) else if c = 43 then (false, rest) else (false, c :: rest)

/-- The next numeral, with an optional sign. -/
def numeral (input : List UInt8) : Option ((Bool × Nat) × List UInt8) :=
  let (negative, input) := sign (input.dropWhile isSpace)
  let digits := input.takeWhile isDigit
  if digits = [] then none else some ((negative, value digits), input.dropWhile isDigit)

/-- A signed type of `w + 1` bits. -/
def signed (w : Nat) (input : List UInt8) : Option (Int × List UInt8) :=
  match numeral input with
  | some ((negative, n), rest) =>
      let v : Int := if negative then -n else n
      if -2 ^ w ≤ v ∧ v < 2 ^ w then some (v, rest) else none
  | none => none

/-- An unsigned type of `w` bits; a minus negates in that type. -/
def unsigned (w : Nat) (input : List UInt8) : Option (BitVec w × List UInt8) :=
  match numeral input with
  | some ((negative, n), rest) =>
      if n < 2 ^ w then
        some (if negative then -BitVec.ofNat w n else BitVec.ofNat w n, rest)
      else none
  | none => none

/-- The words of a string. -/
def words (input : List UInt8) : List (List UInt8) :=
  (input.splitOnP isSpace).filter fun w => w ≠ []

/-- What is neither blank nor a digit begins a word. -/
def Clean (input : List UInt8) : Prop :=
  input.IsChain fun a b => isSpace a = true ∨ isSpace b = true ∨ isDigit b = true

/-- An extraction that succeeds takes the first of the words of a clean string. -/
def TakesWord {α : Type} (extract : List UInt8 → Option (α × List UInt8)) : Prop :=
  ∀ input v rest, Clean input → extract input = some (v, rest) →
    (∃ w, words input = w :: words rest) ∧ rest <:+ input

/-- A number written out in decimal, with an optional minus. -/
structure Decimal where
  negative : Bool
  digits : List UInt8
  nonempty : digits ≠ []
  decimal : ∀ c ∈ digits, isDigit c = true

def Decimal.text (d : Decimal) : List UInt8 :=
  (if d.negative then [45] else []) ++ d.digits

def Decimal.magnitude (d : Decimal) : Nat :=
  value d.digits

def Decimal.value (d : Decimal) : Int :=
  if d.negative then -d.magnitude else d.magnitude

/-- Numbers in columns, each behind a blank. -/
def columns (ds : List Decimal) : List UInt8 :=
  ds.flatMap fun d => 32 :: d.text

variable {input rest : List UInt8}

/-- No byte above the blank is one of those. -/
theorem isSpace_of_blank_lt {c : UInt8} (hlt : 32 < c) : isSpace c = false := by
  simp only [isSpace, Bool.or_eq_false_iff, decide_eq_false_iff_not, Bool.and_eq_false_iff,
    UInt8.le_iff_toNat_le, ← UInt8.toNat_inj]
  have htoNat : (32 : UInt8).toNat < c.toNat := UInt8.lt_iff_toNat_lt.mp hlt
  have hblank : (32 : UInt8).toNat = 32 := rfl
  have hthirteen : (13 : UInt8).toNat = 13 := rfl
  omega

theorem isSpace_of_isDigit {c : UInt8} (hdigit : isDigit c = true) : isSpace c = false := by
  rw [isDigit, Bool.and_eq_true, decide_eq_true_eq] at hdigit
  exact isSpace_of_blank_lt (UInt8.lt_of_lt_of_le (by decide) hdigit.1)

theorem words_cons_space {c : UInt8} (hspace : isSpace c = true) :
    words (c :: input) = words input := by
  have hsplit := List.splitOnP_append_cons [] input hspace
  rw [List.nil_append, List.splitOnP_nil] at hsplit
  rw [words, hsplit, List.filter_append, words]
  rfl

theorem words_dropWhile (input : List UInt8) :
    words (input.dropWhile isSpace) = words input := by
  induction input with
  | nil => rfl
  | cons c input ih =>
      by_cases hspace : isSpace c = true
      · rw [List.dropWhile_cons_of_pos hspace, ih, words_cons_space hspace]
      · rw [List.dropWhile_cons_of_neg hspace]

/-- A word that ends where the string ends or a blank follows. -/
theorem words_append {w : List UInt8} (hne : w ≠ []) (hword : ∀ c ∈ w, isSpace c = false)
    (hrest : ∀ c ∈ rest.head?, isSpace c = true) : words (w ++ rest) = w :: words rest := by
  cases rest with
  | nil =>
      rw [List.append_nil, words, List.splitOnP_eq_singleton hword]
      simp [hne, words]
  | cons c rest =>
      have hspace := hrest c rfl
      rw [words, List.splitOnP_append_cons_of_forall_mem hword c hspace,
        words_cons_space hspace, List.filter_cons_of_pos (by simpa using hne), words]

theorem Clean.suffix (hclean : Clean input) (hsuffix : rest <:+ input) : Clean rest :=
  List.IsChain.suffix hclean hsuffix

/-- What is left behind the blanks begins with none. -/
theorem head?_dropWhile {p : UInt8 → Bool} :
    ∀ c ∈ (input.dropWhile p).head?, p c = false := by
  intro c hc
  have hnot := List.head?_dropWhile_not p input
  rw [Option.mem_def.mp hc] at hnot
  simpa using hnot

/-- Reading a word takes the first of the words. -/
theorem takesWord_word : TakesWord word := by
  intro input w rest hclean hword
  simp only [word, Option.ite_none_left_eq_some, Option.some.injEq, Prod.mk.injEq] at hword
  obtain ⟨hne, rfl, rfl⟩ := hword
  refine ⟨⟨(input.dropWhile isSpace).takeWhile (!isSpace ·), ?_⟩,
    (List.dropWhile_suffix _).trans (List.dropWhile_suffix _)⟩
  have hhead : ∀ c ∈ (input.dropWhile isSpace).head?, isSpace c = false := head?_dropWhile
  rw [← words_dropWhile input]
  revert hne hhead
  generalize input.dropWhile isSpace = behind
  intro hne hhead
  have hsplit : behind.takeWhile (!isSpace ·) ++ behind.dropWhile (!isSpace ·) = behind :=
    List.takeWhile_append_dropWhile
  conv_lhs => rw [← hsplit]
  apply words_append
  · cases behind with
    | nil => contradiction
    | cons c behind => simp [List.takeWhile_cons_of_pos, hhead c rfl]
  · intro c hc
    simpa using List.mem_takeWhile_imp hc
  · intro c hc
    simpa using head?_dropWhile c hc

/-- What a sign is. -/
theorem sign_spec (input : List UInt8) :
    ∃ before, input = before ++ (sign input).2 ∧ ∀ c ∈ before, isSpace c = false := by
  cases input with
  | nil => exact ⟨[], rfl, by simp⟩
  | cons c input =>
      by_cases hminus : c = 45
      · exact ⟨[c], by simp [sign, hminus], by simp [hminus]; decide⟩
      · by_cases hplus : c = 43
        · exact ⟨[c], by simp [sign, hplus], by simp [hplus]; decide⟩
        · exact ⟨[], by simp [sign, hminus, hplus], by simp⟩

/-- A numeral ends where its word does. -/
theorem takesWord_numeral : TakesWord numeral := by
  intro input v rest hclean hnumeral
  simp only [numeral, Option.ite_none_left_eq_some, Option.some.injEq, Prod.mk.injEq] at hnumeral
  obtain ⟨hne, -, rfl⟩ := hnumeral
  obtain ⟨before, hbefore, hnotSpace⟩ := sign_spec (input.dropWhile isSpace)
  revert hne hbefore
  generalize (sign (input.dropWhile isSpace)).2 = behind
  intro hne hbefore
  have hsplit : behind.takeWhile isDigit ++ behind.dropWhile isDigit = behind :=
    List.takeWhile_append_dropWhile
  have hwhole : input.dropWhile isSpace =
      (before ++ behind.takeWhile isDigit) ++ behind.dropWhile isDigit := by
    rw [List.append_assoc, hsplit, hbefore]
  have hsuffix : behind.dropWhile isDigit <:+ input :=
    (List.suffix_append _ _).trans (hwhole ▸ List.dropWhile_suffix _)
  refine ⟨⟨before ++ behind.takeWhile isDigit, ?_⟩, hsuffix⟩
  rw [← words_dropWhile input, hwhole]
  have hdigits : ∀ c ∈ behind.takeWhile isDigit, isDigit c = true := fun c hc =>
    List.mem_takeWhile_imp hc
  apply words_append
  · simp [hne]
  · intro c hc
    rcases List.mem_append.mp hc with hc | hc
    · exact hnotSpace c hc
    · exact isSpace_of_isDigit (hdigits c hc)
  · -- The byte behind the last digit is no digit, so that it is a blank.
    intro c hc
    have hchain : Clean (input.dropWhile isSpace) := hclean.suffix (List.dropWhile_suffix _)
    rw [Clean, hwhole, List.isChain_append] at hchain
    obtain ⟨last, hlast⟩ := Option.isSome_iff_exists.mp (List.getLast?_isSome.mpr hne)
    have hpair := hchain.2.2 last (by simp [List.getLast?_append, hlast]) c hc
    have hlastDigit := hdigits last (List.mem_of_getLast? hlast)
    rcases hpair with hspace | hspace | hdigit
    · rw [isSpace_of_isDigit hlastDigit] at hspace
      contradiction
    · exact hspace
    · rw [head?_dropWhile c hc] at hdigit
      contradiction

theorem takesWord_signed (w : Nat) : TakesWord (signed w) := by
  intro input v rest hclean hsigned
  rw [signed] at hsigned
  rcases hnumeral : numeral input with _ | ⟨⟨negative, n⟩, behind⟩
  · rw [hnumeral] at hsigned
    cases hsigned
  · rw [hnumeral] at hsigned
    simp only [Option.ite_none_right_eq_some, Option.some.injEq, Prod.mk.injEq] at hsigned
    obtain ⟨-, -, rfl⟩ := hsigned
    exact takesWord_numeral input _ _ hclean hnumeral

theorem takesWord_unsigned (w : Nat) : TakesWord (unsigned w) := by
  intro input v rest hclean hunsigned
  rw [unsigned] at hunsigned
  rcases hnumeral : numeral input with _ | ⟨⟨negative, n⟩, behind⟩
  · rw [hnumeral] at hunsigned
    cases hunsigned
  · rw [hnumeral] at hunsigned
    simp only [Option.ite_none_right_eq_some, Option.some.injEq, Prod.mk.injEq] at hunsigned
    obtain ⟨-, -, rfl⟩ := hunsigned
    exact takesWord_numeral input _ _ hclean hnumeral

/-- What follows an extraction has a word less to read. -/
theorem TakesWord.bind {α β : Type} {extract : List UInt8 → Option (α × List UInt8)}
    {next : α × List UInt8 → Option β} {result : β} (htakes : TakesWord extract)
    (hclean : Clean input) (hread : (extract input >>= next) = some result) :
    ∃ v rest, Clean rest ∧ (words input).length = (words rest).length + 1 ∧
      next (v, rest) = some result := by
  obtain ⟨⟨v, rest⟩, hextract, hnext⟩ := Option.bind_eq_some_iff.mp hread
  obtain ⟨⟨w, hwords⟩, hsuffix⟩ := htakes input v rest hclean hextract
  exact ⟨v, rest, hclean.suffix hsuffix, by rw [hwords, List.length_cons], hnext⟩

/-- Nothing is taken from a string that begins otherwise. -/
theorem takeWhile_of_head? {p : UInt8 → Bool} (hrest : ∀ c ∈ rest.head?, p c = false) :
    rest.takeWhile p = [] ∧ rest.dropWhile p = rest := by
  cases rest with
  | nil => exact ⟨rfl, rfl⟩
  | cons c rest => simp [hrest c rfl]

/-- A word that is next is read whole. -/
theorem word_append {w : List UInt8} (hne : w ≠ []) (hword : ∀ c ∈ w, isSpace c = false)
    (hrest : ∀ c ∈ rest.head?, isSpace c = true) : word (w ++ rest) = some (w, rest) := by
  have hskip : (w ++ rest).dropWhile isSpace = w ++ rest := by
    cases w with
    | nil => contradiction
    | cons c w => simp [hword c List.mem_cons_self]
  have hnotSpace : ∀ c ∈ w, (!isSpace c) = true := by simpa using hword
  have hends : ∀ c ∈ rest.head?, (!isSpace c) = false := by simpa using hrest
  obtain ⟨htake, hdrop⟩ := takeWhile_of_head? hends
  simp only [word, hskip]
  rw [if_neg (by simp [hne]), List.takeWhile_append_of_pos hnotSpace,
    List.dropWhile_append_of_pos hnotSpace, htake, hdrop, List.append_nil]

/-- A number in its column is read whole. -/
theorem numeral_text (d : Decimal) (hrest : ∀ c ∈ rest.head?, isDigit c = false) :
    numeral (32 :: d.text ++ rest) = some ((d.negative, d.magnitude), rest) := by
  have hsign : sign ((32 :: d.text ++ rest).dropWhile isSpace) =
      (d.negative, d.digits ++ rest) := by
    obtain ⟨first, others, hdigits⟩ := List.exists_cons_of_ne_nil d.nonempty
    have hfirst : isDigit first = true := d.decimal first (by simp [hdigits])
    have hblank : isSpace 32 = true := by decide
    rw [List.cons_append, List.dropWhile_cons_of_pos hblank, Decimal.text]
    cases d.negative with
    | true =>
        have hminus : isSpace 45 = false := by decide
        simp [hminus, sign]
    | false =>
        have hsigns : first ≠ 45 ∧ first ≠ 43 := by
          constructor
          all_goals
            rintro rfl
            exact absurd hfirst (by decide)
        simp [hdigits, isSpace_of_isDigit hfirst, sign, hsigns]
  obtain ⟨htake, hdrop⟩ := takeWhile_of_head? hrest
  simp only [numeral, hsign]
  rw [List.takeWhile_append_of_pos d.decimal, List.dropWhile_append_of_pos d.decimal, htake,
    hdrop, List.append_nil, if_neg d.nonempty]
  rfl

theorem signed_text {w : Nat} (d : Decimal) (hlow : -2 ^ w ≤ d.value) (hhigh : d.value < 2 ^ w)
    (hrest : ∀ c ∈ rest.head?, isDigit c = false) :
    signed w (32 :: d.text ++ rest) = some (d.value, rest) := by
  rw [signed, numeral_text d hrest]
  exact if_pos ⟨hlow, hhigh⟩

theorem unsigned_text {w : Nat} (d : Decimal) (hpositive : d.negative = false)
    (hhigh : d.magnitude < 2 ^ w) (hrest : ∀ c ∈ rest.head?, isDigit c = false) :
    unsigned w (32 :: d.text ++ rest) = some (BitVec.ofNat w d.magnitude, rest) := by
  rw [unsigned, numeral_text d hrest]
  simp [hhigh, hpositive]

theorem head?_columns (ds : List Decimal) : ∀ c ∈ (columns ds).head?, c = 32 := by
  cases ds with
  | nil => simp [columns]
  | cons d ds => simp [columns]

theorem mem_columns {ds : List Decimal} {c : UInt8} (hmem : c ∈ columns ds) :
    c = 32 ∨ c = 45 ∨ isDigit c = true := by
  obtain ⟨d, -, hcolumn⟩ := List.mem_flatMap.mp hmem
  rcases List.mem_cons.mp hcolumn with hblank | htext
  · exact Or.inl hblank
  · rcases List.mem_append.mp htext with hsign | hdigit
    · rw [List.mem_ite_nil_right, List.mem_singleton] at hsign
      exact Or.inr (Or.inl hsign.2)
    · exact Or.inr (Or.inr (d.decimal c hdigit))

theorem head?_columns_not_digit (ds : List Decimal) :
    ∀ c ∈ (columns ds).head?, isDigit c = false := by
  intro c hc
  rw [head?_columns ds c hc]
  rfl

/-- Digits may follow anything. -/
theorem clean_cons {c : UInt8} {digits : List UInt8} (hdigits : ∀ d ∈ digits, isDigit d = true) :
    Clean (c :: digits) := by
  induction digits generalizing c with
  | nil => exact .singleton c
  | cons d digits ih =>
      obtain ⟨hfirst, hothers⟩ := List.forall_mem_cons.mp hdigits
      exact List.isChain_cons_cons.mpr ⟨Or.inr (Or.inr hfirst), ih hothers⟩

theorem Decimal.clean_text (d : Decimal) : Clean (32 :: d.text) := by
  have hblank : isSpace 32 = true := by decide
  rw [Decimal.text]
  cases d.negative with
  | true =>
      exact List.isChain_cons_cons.mpr ⟨Or.inl hblank, clean_cons d.decimal⟩
  | false => exact clean_cons d.decimal

/-- A column may follow anything. -/
theorem Clean.append_columns (hclean : Clean input) (ds : List Decimal) :
    Clean (input ++ columns ds) := by
  induction ds generalizing input with
  | nil => simpa [columns] using hclean
  | cons d ds ih =>
      have hblank : isSpace 32 = true := by decide
      have hnext : Clean (input ++ 32 :: d.text) := by
        refine List.isChain_append.mpr ⟨hclean, d.clean_text, ?_⟩
        rintro last - c hc
        obtain rfl := Option.some.inj hc
        exact Or.inr (Or.inl hblank)
      rw [show columns (d :: ds) = (32 :: d.text) ++ columns ds from rfl, ← List.append_assoc]
      exact ih hnext

end Extraction
