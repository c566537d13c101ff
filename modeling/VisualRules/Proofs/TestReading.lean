import VisualRules.Proofs.Conditions
import VisualRules.Proofs.Neighbours

/-!
# Reading a test

A test read off its text, without a look at the cards that it was written for. The text is cut at
each `and`; every part has to be the name of a variable, a comparison and a decimal number, with a
blank between them. What is written for a list of clauses is read as these clauses.
-/

namespace VisualRules

/-- The variables of the robot that a test can ask for. -/
def variableNames : List String :=
  ["button.forward", "button.left", "button.backward", "button.right", "button.center",
    "prox.horizontal[0]", "prox.horizontal[1]", "prox.horizontal[2]", "prox.horizontal[3]",
    "prox.horizontal[4]", "prox.horizontal[5]", "prox.horizontal[6]",
    "prox.ground.delta[0]", "prox.ground.delta[1]",
    "angle",
    "state[0]", "state[1]", "state[2]", "state[3]"]

private theorem length_lt_of_cut {text before after : List Char}
    (h : text.dropInfix? " and ".toList = some (before, after)) : after.length < text.length := by
  obtain ⟨⟨joint, rfl, hjoint⟩, _⟩ := List.dropInfix?_eq_some_iff.mp h
  have hlength : joint.length = 5 := congrArg List.length (eq_of_beq hjoint)
  simp only [List.length_append]
  omega

def conjuncts (text : List Char) : List (List Char) :=
  match hcut : text.dropInfix? " and ".toList with
  | none => [text]
  | some (before, after) =>
    have : after.length < text.length := length_lt_of_cut hcut
    before :: conjuncts after
termination_by text.length

/-- The number that digits stand for. -/
def whole? (digits : List Char) : Option Nat :=
  if digits ≠ [] ∧ digits.all Char.isDigit then some (Nat.ofDigitChars 10 digits 0) else none

/-- The number that digits stand for, with a sign in front if it is negative. -/
def integer? (text : List Char) : Option Int :=
  if text.head? = some '-' then (whole? text.tail).map fun n => -(n : Int)
  else (whole? text).map fun n => (n : Int)

/-- What a comparison says of a reading and a bound. -/
def comparison? : List Char → Option (Int → Int → Bool)
  | ['<'] => some fun reading bound => reading < bound
  | ['>'] => some fun reading bound => bound < reading
  | ['=', '='] => some fun reading bound => reading = bound
  | _ => none

/-- Whether the readings are as a clause says, if the text is a clause. -/
def clauseHolds? (readings : String → Int) (text : List Char) : Option Bool :=
  match text.splitOn ' ' with
  | [name, sign, number] =>
    if String.ofList name ∈ variableNames then do
      let compares ← comparison? sign
      let bound ← integer? number
      return compares (readings (String.ofList name)) bound
    else none
  | _ => none

/-- Whether the readings are as a test says, if all of its parts are clauses. -/
def testHolds? (readings : String → Int) (test : String) : Option Bool := do
  let answers ← (conjuncts test.toList).mapM (clauseHolds? readings)
  return answers.all id

theorem whole?_toDigits (n : Nat) : whole? (Nat.toDigits 10 n) = some n := by
  have hdigits : (Nat.toDigits 10 n).all Char.isDigit = true :=
    List.all_eq_true.mpr fun c hc => Nat.isDigit_of_mem_toDigits (by decide) (by decide) hc
  rw [whole?, if_pos ⟨Nat.toDigits_ne_nil, hdigits⟩, Nat.ofDigitChars_ten_toDigits]

theorem integer?_decimal (value : Int32) : integer? (decimal value).toList = some value.toInt := by
  unfold decimal
  cases value.toInt with
  | ofNat n =>
    have hhead : (Nat.toDigits 10 n).head? ≠ some '-' := by
      intro hhead
      have hdigit :=
        Nat.isDigit_of_mem_toDigits (by decide) (by decide) (List.mem_of_mem_head? hhead)
      exact absurd hdigit (by decide)
    rw [show toString (Int.ofNat n) = n.repr from rfl, Nat.toList_repr, integer?, if_neg hhead,
      whole?_toDigits]
    rfl
  | negSucc n =>
    have hlist : (toString (Int.negSucc n)).toList = '-' :: Nat.toDigits 10 (n + 1) := by
      rw [show toString (Int.negSucc n) = "-" ++ (n + 1).repr from rfl, String.toList_append,
        Nat.toList_repr]
      rfl
    rw [hlist, integer?, if_pos List.head?_cons, List.tail_cons, whole?_toDigits]
    rfl

section Cutting

variable {text before after : List Char}

private theorem conjuncts_of_cut (h : text.dropInfix? " and ".toList = some (before, after)) :
    conjuncts text = before :: conjuncts after := by
  rw [conjuncts]
  split
  · next hnone => rw [hnone] at h; cases h
  · next hsome => rw [hsome] at h; cases h; rfl

/-- A text without a blank in front of an `a` is not cut. -/
theorem conjuncts_of_neverMeet (h : NeverMeet ' ' 'a' text) : conjuncts text = [text] := by
  rw [conjuncts]
  split
  · rfl
  · next before after hcut =>
    obtain ⟨⟨joint, heq, hjoint⟩, _⟩ := List.dropInfix?_eq_some_iff.mp hcut
    have hpart : " and ".toList <:+: text := ⟨before, after, by rw [heq, eq_of_beq hjoint]⟩
    exact absurd hpart (h.absent (by decide))

/-- The first place where a text is cut is where the second part is joined to it. -/
theorem dropInfix?_append (h : NeverMeet ' ' 'a' text) (hlast : text.getLast? ≠ some ' ')
    (rest : List Char) :
    (text ++ " and ".toList ++ rest).dropInfix? " and ".toList = some (text, rest) := by
  refine List.dropInfix?_eq_some_iff.mpr ⟨⟨_, rfl, beq_self_eq_true _⟩, ?_⟩
  intro before joint after heq hjoint
  rw [eq_of_beq hjoint, List.append_assoc, List.append_assoc] at heq
  -- An earlier place would lie inside the text, or begin with its last character.
  rcases List.append_eq_append_iff.mp heq with ⟨middle, hbefore, _⟩ | ⟨middle, htext, hjoin⟩
  · rw [hbefore, List.length_append]
    omega
  · match middle with
    | [] => simp [htext]
    | [c] =>
      obtain ⟨rfl, _⟩ :=
        List.cons.inj (show ' ' :: ("and ".toList ++ after) = c :: _ from hjoin)
      rw [htext, List.getLast?_append] at hlast
      exact absurd rfl hlast
    | c :: d :: others =>
      obtain ⟨rfl, hafter⟩ :=
        List.cons.inj (show ' ' :: ("and ".toList ++ after) = c :: _ from hjoin)
      obtain ⟨rfl, _⟩ :=
        List.cons.inj (show 'a' :: ("nd ".toList ++ after) = d :: _ from hafter)
      have hpart : [' ', 'a'] <:+: text := ⟨before, others, by rw [htext]; simp⟩
      exact absurd hpart (h.absent (by decide))

private theorem conjuncts_intercalate {texts : List String} (hne : texts ≠ [])
    (h : ∀ text ∈ texts, NeverMeet ' ' 'a' text.toList ∧ Unpadded text) :
    conjuncts (" and ".intercalate texts).toList = texts.map String.toList := by
  induction texts with
  | nil => exact absurd rfl hne
  | cons text rest ih =>
    rw [List.forall_mem_cons] at h
    obtain ⟨⟨htext, hpadding⟩, hrest⟩ := h
    by_cases hnil : rest = []
    · rw [hnil, String.intercalate_singleton, conjuncts_of_neverMeet htext]
      rfl
    · have hlast : text.toList.getLast? ≠ some ' ' := by
        obtain ⟨c, hc, hblank⟩ := hpadding.last
        rw [hc]
        exact fun hsome => hblank (Option.some.inj hsome)
      rw [String.intercalate_cons_of_ne_nil hnil, String.toList_append, String.toList_append,
        conjuncts_of_cut (dropInfix?_append htext hlast _), ih hnil hrest, List.map_cons]

end Cutting

namespace Clause

variable {readings : String → Int}

/-- What follows the variable of a clause. -/
def bounds (clause : Clause) : String :=
  " " ++ clause.comparison.text ++ " " ++ decimal clause.bound

theorem toList_text (clause : Clause) :
    clause.text.toList = clause.operand.text.toList ++ clause.bounds.toList := by
  simp [text, bounds]

theorem not_mem_bounds {c : Char} (hnumeral : isNumeralChar c = false)
    (hsign : c ∉ ['<', '>', '=']) (clause : Clause) : c ∉ clause.bounds.toList := by
  have hdecimal : c ∉ (decimal clause.bound).toList := by
    intro hmem
    rw [List.all_eq_true.mp (isNumeral_decimal clause.bound) c hmem] at hnumeral
    cases hnumeral
  have hblank : c ∉ " ".toList := by
    rintro hmem
    rw [List.mem_singleton.mp hmem] at hnumeral
    exact absurd hnumeral (by decide)
  have hcomparison : c ∉ clause.comparison.text.toList := by
    have hsigns : clause.comparison.text.toList ⊆ ['<', '>', '='] := by
      cases clause.comparison <;> decide
    exact fun hmem => hsign (hsigns hmem)
  simp only [bounds, String.toList_append, List.mem_append, not_or]
  exact ⟨⟨⟨hblank, hcomparison⟩, hblank⟩, hdecimal⟩

private theorem neverMeet_text (clause : Clause) : NeverMeet ' ' 'a' clause.text.toList := by
  have hoperand : ' ' ∉ clause.operand.text.toList := clause.operand.blank_not_mem_text
  have hbounds : 'a' ∉ clause.bounds.toList := clause.not_mem_bounds (by decide) (by decide)
  rw [toList_text]
  refine (NeverMeet.of_not_mem_first hoperand).append (.of_not_mem_second hbounds) (.inl ?_)
  exact fun hlast => hoperand (List.mem_of_getLast? hlast)

private theorem clauseHolds?_text {clause : Clause} (h : clause.operand.text ∈ variableNames) :
    clauseHolds? readings clause.text.toList =
      some (clause.holds fun operand => readings operand.text) := by
  have htext : clause.text.toList = clause.operand.text.toList ++
      ' ' :: (clause.comparison.text.toList ++ ' ' :: (decimal clause.bound).toList) := by
    simp [text]
  have hcomparison : ' ' ∉ clause.comparison.text.toList := by
    cases clause.comparison <;> decide
  have hparts : clause.text.toList.splitOn ' ' =
      [clause.operand.text.toList, clause.comparison.text.toList,
        (decimal clause.bound).toList] := by
    rw [htext, List.splitOn_append_cons_self_of_not_mem clause.operand.blank_not_mem_text,
      List.splitOn_append_cons_self_of_not_mem hcomparison,
      List.splitOn_eq_singleton (blank_not_mem_decimal _)]
  rw [clauseHolds?, hparts]
  simp only [String.ofList_toList, if_pos h, integer?_decimal]
  rw [holds]
  cases clause.comparison <;> rfl

/-- The text of a test is read as the clauses that it was written for. -/
theorem testHolds?_testOf {clauses : List Clause} (hne : clauses ≠ [])
    (h : ∀ clause ∈ clauses, clause.operand.text ∈ variableNames) :
    testHolds? readings (testOf clauses) =
      some (clauses.all (Clause.holds fun operand => readings operand.text)) := by
  have hparts : conjuncts (testOf clauses).toList = (clauses.map text).map String.toList := by
    apply conjuncts_intercalate (by simpa using hne)
    rw [List.forall_mem_map]
    exact fun clause _ => ⟨clause.neverMeet_text, clause.unpadded_text⟩
  have hanswers : ((clauses.map text).map String.toList).mapM (clauseHolds? readings) =
      some (clauses.map (Clause.holds fun operand => readings operand.text)) := by
    clear hne hparts
    induction clauses with
    | nil => rfl
    | cons clause rest ih =>
      rw [List.forall_mem_cons] at h
      simp only [List.map_cons, List.mapM_cons, clauseHolds?_text h.1, ih h.2]
      rfl
  rw [testHolds?, hparts, hanswers]
  simp

end Clause

/-- There is no fifth state bit, so the second text is no test. -/
example : testHolds? (fun _ => 0) "angle > -1 and state[0] == 1" = some false ∧
    testHolds? (fun _ => 0) "angle > -1 and state[4] == 1" = none := by
  decide +kernel

end VisualRules
