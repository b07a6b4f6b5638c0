import Mathlib.Data.List.TakeWhile
import Mathlib.Data.Nat.Digits.Lemmas
import PeerStreamer.Foundation.Eval

/-!
# Strings

What the C library does with texts, over lists of bytes: numerals (`%d` and `atoi`), fields with a
separator between them, `strchr`, `strrchr`, the lines `fgets` reads and the fields of `%s`, and
writing into a buffer.  A text is a list of bytes without the NUL that ends it; `strchr` is given
what lies in memory, and finds the NUL itself.
-/

namespace PeerStreamer

/-! ## Numerals -/

/-- The character of a digit below 16. -/
def digitChar (d : ℕ) : UInt8 := if d < 10 then .ofNat (48 + d) else .ofNat (87 + d)

/-- The digit a character stands for. -/
def digitValue (c : UInt8) : ℕ := if c.toNat < 58 then c.toNat - 48 else c.toNat - 87

/-- A number in base `base`, without leading zeros. -/
def numeral (base n : ℕ) : List UInt8 :=
  if n = 0 then [digitChar 0] else (Nat.digits base n).reverse.map digitChar

/-- The number a list of digits stands for. -/
def readNumeral (base : ℕ) (s : List UInt8) : ℕ := s.foldl (fun v c => digitValue c + base * v) 0

section Numerals

variable {base n d : ℕ} {c : UInt8}

lemma digitChar_toNat (h : d < 16) : (digitChar d).toNat = if d < 10 then 48 + d else 87 + d := by
  rw [digitChar]
  split_ifs <;> exact UInt8.toNat_ofNat_of_lt' (by rw [UInt8.size]; omega)

lemma digitValue_digitChar (h : d < 16) : digitValue (digitChar d) = d := by
  rw [digitValue, digitChar_toNat h]
  split_ifs <;> omega

/-- **What is printed is read back.** -/
theorem readNumeral_numeral (hb : 1 < base) (hb' : base ≤ 16) (n : ℕ) :
    readNumeral base (numeral base n) = n := by
  rw [numeral]
  split_ifs with hn
  · rw [hn]
    rfl
  · have hvalues : (Nat.digits base n).map (digitValue ∘ digitChar) = Nat.digits base n := by
      refine (List.map_congr_left fun d hd => ?_).trans (List.map_id _)
      exact digitValue_digitChar (lt_of_lt_of_le (Nat.digits_lt_base hb hd) hb')
    have hfold : readNumeral base ((Nat.digits base n).reverse.map digitChar)
        = ((Nat.digits base n).map (digitValue ∘ digitChar)).foldr (fun d v => d + base * v) 0 := by
      rw [readNumeral, List.foldl_map, List.foldl_reverse, List.foldr_map]
      rfl
    rw [hfold, hvalues]
    exact (Nat.ofDigits_eq_foldr base _).symm.trans (Nat.ofDigits_digits base n)

/-- A numeral consists of digits. -/
lemma mem_numeral (hb : 1 < base) (hc : c ∈ numeral base n) : ∃ d < base, c = digitChar d := by
  rw [numeral] at hc
  split_ifs at hc with hn
  · exact ⟨0, by omega, List.mem_singleton.mp hc⟩
  · obtain ⟨d, hd, rfl⟩ := List.mem_map.mp hc
    exact ⟨d, Nat.digits_lt_base hb (List.mem_reverse.mp hd), rfl⟩

lemma numeral_ne_nil (base n : ℕ) : numeral base n ≠ [] := by
  rw [numeral]
  split_ifs with hn
  · exact List.cons_ne_nil _ _
  · simpa [Nat.digits_ne_nil_iff_ne_zero] using hn

lemma numeral_length_le {k : ℕ} (hb : 1 < base) (hk : 0 < k) (hn : n < base ^ k) :
    (numeral base n).length ≤ k := by
  rw [numeral]
  split_ifs
  · exact hk
  · rw [List.length_map, List.length_reverse]
    exact (Nat.digits_length_le_iff hb n).mpr hn

end Numerals

/-! ## Fields -/

/-- The last `k` digits of a number in base `size`. -/
def fields (size : ℕ) : ℕ → ℕ → List ℕ
  | 0, _ => []
  | k + 1, n => fields size k (n / size) ++ [n % size]

/-- A number as `k` numerals with separators between them. -/
def joinFields (sep : UInt8) (base size k n : ℕ) : List UInt8 :=
  [sep].intercalate ((fields size k n).map (numeral base))

/-- The number the fields of a text make up. -/
def readFields (sep : UInt8) (base size : ℕ) (s : List UInt8) : ℕ :=
  (s.splitOn sep).foldl (fun v t => size * v + readNumeral base t) 0

section Fields

variable {sep c : UInt8} {base size k n : ℕ}

lemma fields_length (size k n : ℕ) : (fields size k n).length = k := by
  induction k generalizing n with
  | zero => rfl
  | succ k ih => rw [fields, List.length_append, ih, List.length_singleton]

lemma foldl_fields (hn : n < size ^ k) :
    (fields size k n).foldl (fun v d => size * v + d) 0 = n := by
  induction k generalizing n with
  | zero =>
      rw [pow_zero, Nat.lt_one_iff] at hn
      exact hn.symm
  | succ k ih =>
      have hquot : n / size < size ^ k := Nat.div_lt_of_lt_mul (by rwa [mul_comm, ← pow_succ])
      rw [fields, List.foldl_append, ih hquot, List.foldl_cons, List.foldl_nil]
      exact Nat.div_add_mod n size

/-- The separators stand where the fields were joined. -/
lemma splitOn_joinFields (hsep : ∀ d < base, sep ≠ digitChar d) (hb : 1 < base) (hk : 0 < k)
    (n : ℕ) :
    (joinFields sep base size k n).splitOn sep = (fields size k n).map (numeral base) := by
  refine List.splitOn_intercalate sep (fun l hl hmem => ?_) fun hnil => ?_
  · obtain ⟨m, -, rfl⟩ := List.mem_map.mp hl
    obtain ⟨d, hd, heq⟩ := mem_numeral hb hmem
    exact hsep d hd heq
  · have hlength := fields_length size k n
    rw [List.map_eq_nil_iff.mp hnil, List.length_nil] at hlength
    omega

/-- **What is joined is read back.** -/
theorem readFields_joinFields (hsep : ∀ d < base, sep ≠ digitChar d) (hb : 1 < base)
    (hb' : base ≤ 16) (hk : 0 < k) (hn : n < size ^ k) :
    readFields sep base size (joinFields sep base size k n) = n := by
  rw [readFields, splitOn_joinFields hsep hb hk, List.foldl_map]
  simp only [readNumeral_numeral hb hb']
  exact foldl_fields hn

lemma mem_intercalate {ls : List (List UInt8)} (hc : c ∈ [sep].intercalate ls) :
    c = sep ∨ ∃ l ∈ ls, c ∈ l := by
  induction ls with
  | nil => cases hc
  | cons l ls ih =>
      cases ls with
      | nil =>
          rw [List.intercalate_singleton] at hc
          exact Or.inr ⟨l, List.mem_singleton_self l, hc⟩
      | cons l' ls =>
          rw [List.intercalate_cons_cons, List.mem_append, List.mem_append,
            List.mem_singleton] at hc
          rcases hc with (hc | rfl) | hc
          · exact Or.inr ⟨l, List.mem_cons_self, hc⟩
          · exact Or.inl rfl
          · exact (ih hc).imp_right fun ⟨t, ht, hct⟩ => ⟨t, List.mem_cons_of_mem _ ht, hct⟩

/-- The characters of joined fields. -/
lemma mem_joinFields (hb : 1 < base) (hc : c ∈ joinFields sep base size k n) :
    c = sep ∨ ∃ d < base, c = digitChar d := by
  rcases mem_intercalate hc with rfl | ⟨l, hl, hc⟩
  · exact Or.inl rfl
  · obtain ⟨m, -, rfl⟩ := List.mem_map.mp hl
    exact Or.inr (mem_numeral hb hc)

/-- Two fields have a separator between them. -/
lemma sep_mem_joinFields (hsep : ∀ d < base, sep ≠ digitChar d) (hb : 1 < base) (hk : 2 ≤ k)
    (n : ℕ) : sep ∈ joinFields sep base size k n := by
  by_contra hnone
  have hone : ([sep].intercalate [joinFields sep base size k n]).splitOn sep
      = [joinFields sep base size k n] :=
    List.splitOn_intercalate sep (by simpa using hnone) (List.cons_ne_nil _ _)
  rw [List.intercalate_singleton, splitOn_joinFields hsep hb (by omega)] at hone
  have hlength := congrArg List.length hone
  rw [List.length_map, fields_length, List.length_singleton] at hlength
  omega

end Fields

/-! ## Integers -/

/-- The conversion `%d`. -/
def formatInt (z : ℤ) : List UInt8 :=
  if z < 0 then 45 :: numeral 10 (-z).toNat else numeral 10 z.toNat

def isspace (c : UInt8) : Bool := c = 32 || 9 ≤ c && c ≤ 13

def isdigit (c : UInt8) : Bool := 48 ≤ c && c ≤ 57

/-- `atoi`: blanks, a sign, and the digits that follow; the value has to be an `int`. -/
def atoi (s : List UInt8) : Eval ℤ :=
  let value (s : List UInt8) : ℤ := readNumeral 10 (s.takeWhile isdigit)
  match s.dropWhile isspace with
  | [] => .ok 0
  | c :: s =>
      if c = 45 then cint (-value s)
      else if c = 43 then cint (value s)
      else cint (value (c :: s))

section Integers

variable {n : ℕ} {c : UInt8}

/-- The characters of a decimal numeral. -/
lemma mem_decimal (hc : c ∈ numeral 10 n) : 48 ≤ c.toNat ∧ c.toNat ≤ 57 := by
  obtain ⟨d, hd, rfl⟩ := mem_numeral (by decide) hc
  rw [digitChar_toNat (by omega), if_pos hd]
  omega

lemma isdigit_of_mem_decimal (hc : c ∈ numeral 10 n) : isdigit c = true := by
  obtain ⟨hlo, hhi⟩ := mem_decimal hc
  simp only [isdigit, Bool.and_eq_true, decide_eq_true_eq, UInt8.le_iff_toNat_le]
  exact ⟨hlo, hhi⟩

/-- **`atoi` reads what `%d` prints.** -/
theorem atoi_decimal (hn : (n : ℤ) ≤ INT_MAX) : atoi (numeral 10 n) = .ok n := by
  have hdigits : ∀ c ∈ numeral 10 n, isdigit c = true := fun c => isdigit_of_mem_decimal
  have hread : readNumeral 10 (numeral 10 n) = n := readNumeral_numeral (by decide) (by decide) n
  obtain ⟨c, s, hs⟩ := List.exists_cons_of_ne_nil (numeral_ne_nil 10 n)
  obtain ⟨hlo, hhi⟩ := mem_decimal (n := n) (c := c) (by rw [hs]; exact List.mem_cons_self)
  have hspace : isspace c = false := by
    simp only [isspace, Bool.or_eq_false_iff, Bool.and_eq_false_iff, decide_eq_false_iff_not,
      UInt8.le_iff_toNat_le, ← UInt8.toNat_inj]
    exact ⟨by change c.toNat ≠ 32; omega, Or.inr (by change ¬c.toNat ≤ 13; omega)⟩
  have hminus : c ≠ 45 := by
    rintro rfl
    exact absurd hlo (by decide)
  have hplus : c ≠ 43 := by
    rintro rfl
    exact absurd hlo (by decide)
  rw [hs] at hdigits hread ⊢
  rw [atoi, List.dropWhile_cons_of_neg (by simp [hspace])]
  simp only [if_neg hminus, if_neg hplus, List.takeWhile_eq_self_iff.mpr hdigits, hread]
  exact cint_ok (by simp only [INT_MIN]; omega) hn

end Integers

/-! ## Searching -/

/-- `strchr`: the offset of the first `c`, none if the string ends before it. -/
def strchr (c : UInt8) : List UInt8 → Eval (Option ℕ)
  | [] => .error .outOfBounds
  | x :: xs =>
      if x = c then .ok (some 0)
      else if x = 0 then .ok none
      else do
        let i ← strchr c xs
        return i.map (· + 1)

/-- `strrchr` in a string: the offset of the last `c`. -/
def strrchr (c : UInt8) (s : List UInt8) : Option ℕ :=
  if c ∈ s then some (s.length - 1 - s.reverse.idxOf c) else none

section Searching

variable {c : UInt8} {s t : List UInt8}

/-- The search goes on behind what has neither the character nor a NUL. -/
lemma strchr_skip (hc : c ∉ s) (hnul : 0 ∉ s) (t : List UInt8) :
    strchr c (s ++ t) = (do
      let i ← strchr c t
      return i.map (· + s.length)) := by
  induction s with
  | nil => cases h : strchr c t <;> simp [h]
  | cons x s ih =>
      obtain ⟨hx, hc⟩ := not_or.mp (mt List.mem_cons.mpr hc)
      obtain ⟨hx₀, hnul⟩ := not_or.mp (mt List.mem_cons.mpr hnul)
      rw [List.cons_append, strchr, if_neg (Ne.symm hx), if_neg (Ne.symm hx₀), ih hc hnul]
      cases strchr c t with
      | error e => rfl
      | ok i => simp [Function.comp_def, add_assoc]

lemma strchr_append (hc : c ∉ s) (hnul : 0 ∉ s) (t : List UInt8) :
    strchr c (s ++ c :: t) = .ok (some s.length) := by
  rw [strchr_skip hc hnul, strchr, if_pos rfl]
  simp

/-- Nothing is found in a string that does not have it. -/
lemma strchr_absent (hc : c ∉ s) (hc₀ : c ≠ 0) (hnul : 0 ∉ s) (rest : List UInt8) :
    strchr c (s ++ 0 :: rest) = .ok none := by
  rw [strchr_skip hc hnul, strchr, if_neg (Ne.symm hc₀), if_pos rfl]
  rfl

/-- A string around its last `c`. -/
lemma exists_last (hc : c ∈ s) : ∃ before after, s = before ++ c :: after ∧ c ∉ after := by
  obtain ⟨as, bs, hrev, hnotMem⟩ := List.eq_append_cons_of_mem (List.mem_reverse.mpr hc)
  refine ⟨bs.reverse, as.reverse, ?_, fun hmem => hnotMem (List.mem_reverse.mp hmem)⟩
  rw [← List.reverse_reverse s, hrev, List.reverse_append, List.reverse_cons, List.append_assoc,
    List.singleton_append]

lemma strrchr_append (hc : c ∉ t) (s : List UInt8) : strrchr c (s ++ c :: t) = some s.length := by
  have hidx : (s ++ c :: t).reverse.idxOf c = t.length := by
    rw [List.reverse_append, List.reverse_cons, List.append_assoc,
      List.idxOf_append_of_notMem (by simpa using hc)]
    simp
  rw [strrchr, if_pos (by simp), hidx]
  simp only [List.length_append, List.length_cons, Option.some.injEq]
  omega

end Searching

/-! ## Lines and fields -/

/-- `fgets` of at most `n` characters: the line, what is left of the file, and `feof`. -/
def fgets : ℕ → List UInt8 → List UInt8 × List UInt8 × Bool
  | 0, file => ([], file, false)
  | _ + 1, [] => ([], [], true)
  | n + 1, c :: file =>
      if c = 10 then ([c], file, false)
      else (c :: (fgets n file).1, (fgets n file).2)

/-- `%s`: the characters up to the next blank, and what is left. -/
def scanField (s : List UInt8) : List UInt8 × List UInt8 :=
  ((s.dropWhile isspace).takeWhile (!isspace ·), (s.dropWhile isspace).dropWhile (!isspace ·))

/-- The first two fields of a text. -/
def twoFields (s : List UInt8) : List UInt8 × List UInt8 :=
  ((scanField s).1, (scanField (scanField s).2).1)

section Lines

variable {n : ℕ} {file line : List UInt8}

/-- What is read and what is left make up the file. -/
lemma fgets_append (n : ℕ) (file : List UInt8) : (fgets n file).1 ++ (fgets n file).2.1 = file := by
  induction n generalizing file with
  | zero => rfl
  | succ n ih =>
      cases file with
      | nil => rfl
      | cons c file =>
          rw [fgets]
          split_ifs with hc
          · rfl
          · rw [List.cons_append, ih]

/-- Something is read before the end of the file. -/
lemma fgets_shorter (h : ¬(fgets (n + 1) file).2.2 = true) :
    (fgets (n + 1) file).2.1.length < file.length := by
  cases file with
  | nil => exact absurd rfl h
  | cons c file =>
      rw [fgets]
      split_ifs with hc
      · exact Nat.lt_succ_self _
      · have hlen := congrArg List.length (fgets_append n file)
        rw [List.length_append] at hlen
        have hle : (fgets n file).2.1.length ≤ file.length := by omega
        exact Nat.lt_succ_of_le hle

/-- A line that fits is read with its newline, and a longer one in part. -/
lemma fgets_line (hline : 10 ∉ line) (n : ℕ) (rest : List UInt8) :
    fgets n (line ++ 10 :: rest)
      = if line.length < n then (line ++ [10], rest, false)
        else (line.take n, line.drop n ++ 10 :: rest, false) := by
  induction n generalizing line with
  | zero => simp [fgets]
  | succ n ih =>
      cases line with
      | nil => simp [fgets]
      | cons c line =>
          obtain ⟨hc, hline⟩ := not_or.mp (mt List.mem_cons.mpr hline)
          rw [List.cons_append, fgets, if_neg (Ne.symm hc), ih hline, List.length_cons]
          by_cases hlen : line.length < n
          · rw [if_pos hlen, if_pos (Nat.succ_lt_succ hlen)]
            rfl
          · rw [if_neg hlen, if_neg (mt Nat.lt_of_succ_lt_succ hlen)]
            rfl

/-- Without a first field there is no second one. -/
lemma twoFields_eq_nil {s : List UInt8} (h : (twoFields s).1 = []) : (twoFields s).2 = [] := by
  have hblank : s.dropWhile isspace = [] := by
    cases hs : s.dropWhile isspace with
    | nil => rfl
    | cons c t =>
        have hc : isspace c = false := by
          have hhead := List.head?_dropWhile_not isspace s
          rwa [hs] at hhead
        simp [twoFields, scanField, hs, hc] at h
  simp [twoFields, scanField, hblank]

end Lines

/-! ## Writing -/

/-- The buffer after `bytes` have been written at the offset `off`. -/
def writeAt (mem : List UInt8) (off : ℕ) (bytes : List UInt8) : Eval (List UInt8) :=
  if off + bytes.length ≤ mem.length then
    .ok (mem.take off ++ bytes ++ mem.drop (off + bytes.length))
  else .error .outOfBounds

/-- A write that fits keeps the size and what lies before it. -/
lemma writeAt_eq {mem bytes : List UInt8} {off : ℕ} (h : off + bytes.length ≤ mem.length) :
    ∃ mem', writeAt mem off bytes = .ok mem' ∧ mem'.length = mem.length
      ∧ ∀ k ≤ bytes.length, mem'.take (off + k) = mem.take off ++ bytes.take k := by
  refine ⟨_, if_pos h, ?_, fun k hk => ?_⟩
  · simp only [List.length_append, List.length_take, List.length_drop]
    omega
  · have hoff : (mem.take off).length = off := List.length_take_of_le (by omega)
    rw [List.append_assoc, List.take_append, hoff, List.take_of_length_le (by omega),
      Nat.add_sub_cancel_left, List.take_append_of_le_length hk]

/-- The two memories differ in the `max` bytes from `b` on, if anywhere. -/
def SameOutside (b max : ℕ) (mem mem' : List UInt8) : Prop :=
  mem'.length = mem.length ∧ mem'.take b = mem.take b ∧ mem'.drop (b + max) = mem.drop (b + max)

section Writing

variable {b max off : ℕ} {mem mem₁ mem₂ bytes : List UInt8}

lemma SameOutside.trans (h₁ : SameOutside b max mem mem₁) (h₂ : SameOutside b max mem₁ mem₂) :
    SameOutside b max mem mem₂ :=
  ⟨h₂.1.trans h₁.1, h₂.2.1.trans h₁.2.1, h₂.2.2.trans h₁.2.2⟩

/-- A write inside of a buffer changes nothing outside. -/
lemma writeAt_sameOutside (hlo : b ≤ off) (hhi : off + bytes.length ≤ b + max)
    (hroom : b + max ≤ mem.length) :
    ∃ mem', writeAt mem off bytes = .ok mem' ∧ SameOutside b max mem mem' := by
  have hoff : (mem.take off).length = off := List.length_take_of_le (by omega)
  refine ⟨_, if_pos (by omega), ?_, ?_, ?_⟩
  · simp only [List.length_append, List.length_take, List.length_drop]
    omega
  · rw [List.append_assoc, List.take_append_of_le_length (by omega), List.take_take,
      Nat.min_eq_left hlo]
  · have hlen : (mem.take off ++ bytes).length = off + bytes.length := by
      rw [List.length_append, hoff]
    rw [List.drop_append, List.drop_eq_nil_of_le (by omega), List.nil_append, List.drop_drop, hlen]
    congr 1
    omega

/-- There is nothing to write behind the end. -/
lemma writeAt_error (h : mem.length < off + bytes.length) :
    writeAt mem off bytes = .error .outOfBounds :=
  if_neg (by omega)

end Writing

/-- `strcpy`: what its result points to, which is never NULL. -/
def strcpy (_dst src : List UInt8) : Option (List UInt8) := some src

end PeerStreamer
