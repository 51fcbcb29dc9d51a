import AssocLint.Proofs.Sexp.Balance

/-!
# Parentheses without partner

Two parentheses are partners when the first one opens, the second one closes and what stands between
them is paired in itself (`ArePartners`). `culprit` names the line of one that has no partner. It is
the first of all that have none where that one closes. Otherwise all that have none open, and it is
the last of them (`culprit_spec`), so with several open lists the first of them is not the one that
is named (`culprit_spec_two_open`).

The scan keeps the openings that still wait for a partner. `LeavesOpen` says which they are in the
part of a text that has been read: between any two of them, before the first and behind the last
all is paired.
-/

namespace AssocLint
namespace Parenthesis

open Sexp (lineAfter)

/-! ## Partners -/

/-- The parentheses at two positions of a list are partners. -/
def ArePartners (parens : List Parenthesis) (i j : Nat) : Prop :=
  ∃ front opening inner closing rest,
    parens = front ++ opening :: (inner ++ closing :: rest) ∧
      opening.isOpening = true ∧ closing.isOpening = false ∧ Paired inner ∧
        front.length = i ∧ front.length + 1 + inner.length = j

/-- The parenthesis at a position of a list has a partner, behind it or before it. -/
def HasPartner (parens : List Parenthesis) (i : Nat) : Prop :=
  ∃ j, ArePartners parens i j ∨ ArePartners parens j i

/-- A parenthesis stands at a position of a list and has no partner there. -/
def IsAlone (parens : List Parenthesis) (i : Nat) (paren : Parenthesis) : Prop :=
  parens[i]? = some paren ∧ ¬ HasPartner parens i

/-! ## Balance -/

/-- How many more parentheses open than close. -/
def balance : List Parenthesis → Int
  | [] => 0
  | paren :: rest => (if paren.isOpening then 1 else -1) + balance rest

theorem balance_append (parens parens' : List Parenthesis) :
    balance (parens ++ parens') = balance parens + balance parens' := by
  induction parens with
  | nil =>
      exact (Int.zero_add _).symm
  | cons paren parens ih =>
      rw [List.cons_append, balance, balance, ih, Int.add_assoc]

theorem balance_opening {opening : Parenthesis} (opens : opening.isOpening = true)
    (rest : List Parenthesis) : balance (opening :: rest) = 1 + balance rest := by
  rw [balance, if_pos opens]

theorem balance_closing {closing : Parenthesis} (closes : closing.isOpening = false)
    (rest : List Parenthesis) : balance (closing :: rest) = -1 + balance rest := by
  rw [balance, closes]
  rfl

namespace Paired

variable {parens parens' : List Parenthesis}

theorem balance_eq (h : Paired parens) : balance parens = 0 := by
  induction h with
  | nil =>
      rfl
  | pair opens closes _ _ ihInner ihRest =>
      rw [balance_opening opens, balance_append, balance_closing closes, ihInner, ihRest]
      rfl

/-- No part from the start closes more than it opens. -/
theorem balance_take_nonneg (h : Paired parens) (n : Nat) : 0 ≤ balance (parens.take n) := by
  induction h generalizing n with
  | nil =>
      rw [List.take_nil]
      exact Int.le_refl 0
  | @pair opening closing inner rest opens closes hinner _ ihInner ihRest =>
      cases n with
      | zero =>
          exact Int.le_refl 0
      | succ n =>
          rw [List.take_succ_cons, balance_opening opens, List.take_append, balance_append]
          have hfront := ihInner n
          -- The part ends inside the pair, or behind it.
          cases hlength : n - inner.length with
          | zero =>
              rw [List.take_zero, balance]
              omega
          | succ m =>
              have hall : inner.take n = inner := List.take_of_length_le (by omega)
              have hbehind := ihRest m
              rw [hall, hinner.balance_eq, List.take_succ_cons, balance_closing closes]
              omega

theorem balance_nonneg_of_append (h : Paired (parens ++ parens')) : 0 ≤ balance parens := by
  have hfront := h.balance_take_nonneg parens.length
  rwa [List.take_left] at hfront

theorem append (h : Paired parens) (h' : Paired parens') : Paired (parens ++ parens') := by
  induction h with
  | nil =>
      exact h'
  | pair opens closes hinner _ _ ihRest =>
      rw [List.cons_append, List.append_assoc, List.cons_append]
      exact .pair opens closes hinner ihRest

/-- All that stands in a paired part has a partner in that part. -/
theorem hasPartner (h : Paired parens) (front rest : List Parenthesis) {i : Nat}
    (hi : front.length ≤ i) (hi' : i < front.length + parens.length) :
    HasPartner (front ++ (parens ++ rest)) i := by
  induction h generalizing front rest with
  | nil =>
      rw [List.length_nil] at hi'
      omega
  | @pair opening closing inner behind opens closes hinner _ ihInner ihBehind =>
      have hpartners : ArePartners (front ++ (opening :: (inner ++ closing :: behind) ++ rest))
          front.length (front.length + 1 + inner.length) :=
        ⟨front, opening, inner, closing, behind ++ rest, by simp, opens, closes, hinner, rfl, rfl⟩
      simp only [List.length_cons, List.length_append] at hi'
      -- The position is that of the opening one, inside, that of the closing one, or behind.
      rcases Nat.lt_or_ge front.length i with hopening | hopening
      · rcases Nat.lt_trichotomy i (front.length + 1 + inner.length) with
          hinside | hclosing | hbehind
        · have h := ihInner (front ++ [opening]) (closing :: (behind ++ rest))
            (by rw [List.length_append, List.length_singleton]; omega)
            (by rw [List.length_append, List.length_singleton]; omega)
          simpa using h
        · exact ⟨_, .inr (hclosing ▸ hpartners)⟩
        · have h := ihBehind (front ++ opening :: (inner ++ [closing])) rest
            (by simp only [List.length_append, List.length_cons, List.length_nil]; omega)
            (by simp only [List.length_append, List.length_cons, List.length_nil]; omega)
          simpa using h
      · have heq : front.length = i := by omega
        exact ⟨_, .inl (heq ▸ hpartners)⟩

end Paired

/-! ## Without partner -/

variable {parens front inner rest : List Parenthesis} {paren : Parenthesis}

theorem getElem?_length_append_cons (front rest : List Parenthesis) (paren : Parenthesis) :
    (front ++ paren :: rest)[front.length]? = some paren := by
  rw [List.getElem?_append_right (Nat.le_refl _), Nat.sub_self]
  rfl

theorem ArePartners.opens {i j : Nat} (h : ArePartners parens i j) (hi : parens[i]? = some paren) :
    paren.isOpening = true := by
  obtain ⟨front, opening, inner, closing, rest, rfl, opens, -, -, rfl, -⟩ := h
  rw [getElem?_length_append_cons] at hi
  exact Option.some.inj hi ▸ opens

theorem ArePartners.closes {i j : Nat} (h : ArePartners parens i j) (hj : parens[j]? = some paren) :
    paren.isOpening = false := by
  obtain ⟨front, opening, inner, closing, rest, rfl, -, closes, -, -, rfl⟩ := h
  have hlength : front.length + 1 + inner.length = (front ++ opening :: inner).length := by
    rw [List.length_append, List.length_cons]
    omega
  rw [hlength, ← List.cons_append, ← List.append_assoc, getElem?_length_append_cons] at hj
  exact Option.some.inj hj ▸ closes

/-- Behind a paired part a parenthesis that closes has no partner. -/
theorem isAlone_closing (hfront : Paired front) (closes : paren.isOpening = false)
    (rest : List Parenthesis) : IsAlone (front ++ paren :: rest) front.length paren := by
  have hparen := getElem?_length_append_cons front rest paren
  refine ⟨hparen, ?_⟩
  rintro ⟨j, h | h⟩
  · have opens := h.opens hparen
    rw [closes] at opens
    cases opens
  · obtain ⟨front', opening, inner, closing, rest', heq, opens, -, hinner, rfl, hlength⟩ := h
    -- The part before the closing one would open with `opening` and leave it open.
    have hsplit : front = front' ++ opening :: inner := by
      rw [← List.cons_append, ← List.append_assoc] at heq
      refine (List.append_inj heq ?_).1
      rw [List.length_append, List.length_cons]
      omega
    have hbalance := hfront.balance_eq
    rw [hsplit] at hfront
    have hnonneg := hfront.balance_nonneg_of_append
    rw [hsplit, balance_append, balance_opening opens, hinner.balance_eq] at hbalance
    omega

/-- Before a paired part that ends the list a parenthesis that opens has no partner. -/
theorem isAlone_opening (opens : paren.isOpening = true) (hinner : Paired inner)
    (front : List Parenthesis) : IsAlone (front ++ paren :: inner) front.length paren := by
  have hparen := getElem?_length_append_cons front inner paren
  refine ⟨hparen, ?_⟩
  rintro ⟨j, h | h⟩
  · obtain ⟨front', opening, inner', closing, rest', heq, -, closes, hinner', hlength, -⟩ := h
    -- The part behind the opening one would close it.
    obtain ⟨-, heq⟩ := List.append_inj heq hlength.symm
    obtain ⟨-, hsplit⟩ := List.cons.inj heq
    rw [hsplit, List.append_cons] at hinner
    have hnonneg := hinner.balance_nonneg_of_append
    rw [balance_append, hinner'.balance_eq, balance_closing closes, balance] at hnonneg
    omega
  · have closes := h.closes hparen
    rw [opens] at closes
    cases closes

/-! ## The openings that wait -/

/-- The openings that still wait for a partner in a list, the latest first. All else is paired. -/
inductive LeavesOpen : List Parenthesis → List Parenthesis → Prop where
  | paired {front : List Parenthesis} : Paired front → LeavesOpen [] front
  | opening {opened front inner : List Parenthesis} {opening : Parenthesis} :
      LeavesOpen opened front → opening.isOpening = true → Paired inner →
        LeavesOpen (opening :: opened) (front ++ opening :: inner)

theorem LeavesOpen.append {opened : List Parenthesis} (h : LeavesOpen opened front)
    (hinner : Paired inner) : LeavesOpen opened (front ++ inner) := by
  cases h with
  | paired hfront =>
      exact .paired (hfront.append hinner)
  | opening h opens hinner' =>
      rw [List.append_assoc]
      exact .opening h opens (hinner'.append hinner)

/-- What waits for no partner has one, so all that has none opens. -/
theorem LeavesOpen.opens_of_isAlone {opened : List Parenthesis} (h : LeavesOpen opened front)
    (rest : List Parenthesis) {i : Nat} (hi : i < front.length)
    (halone : IsAlone (front ++ rest) i paren) : paren.isOpening = true := by
  induction h generalizing rest with
  | paired hfront =>
      exact absurd (hfront.hasPartner [] rest (Nat.zero_le i) (by simpa using hi)) halone.2
  | @opening opened front inner opening _ opens hinner ih =>
      rw [List.append_assoc, List.cons_append] at halone
      rw [List.length_append, List.length_cons] at hi
      rcases Nat.lt_trichotomy i front.length with hfront | hopening | hbehind
      · exact ih (opening :: (inner ++ rest)) hfront halone
      · obtain ⟨hparen, -⟩ := halone
        rw [hopening, getElem?_length_append_cons] at hparen
        exact Option.some.inj hparen ▸ opens
      · have hpartner := hinner.hasPartner (i := i) (front ++ [opening]) rest
          (by rw [List.length_append, List.length_singleton]; omega)
          (by rw [List.length_append, List.length_singleton]; omega)
        rw [List.append_assoc, List.singleton_append] at hpartner
        exact absurd hpartner halone.2

/-! ## What is named -/

/-- A parenthesis without partner is the one to be named: it closes and is the first of all without
partner, or all of those open and it is the last. -/
def IsNamed (parens : List Parenthesis) (i : Nat) (paren : Parenthesis) : Prop :=
  IsAlone parens i paren ∧
    (paren.isOpening = false ∧ (∀ j other, IsAlone parens j other → i ≤ j) ∨
      ∀ j other, IsAlone parens j other → other.isOpening = true ∧ j ≤ i)

/-- At most one parenthesis is to be named. -/
theorem IsNamed.eq {i i' : Nat} {paren paren' : Parenthesis} (h : IsNamed parens i paren)
    (h' : IsNamed parens i' paren') : paren = paren' := by
  have hposition : i = i' := by
    obtain ⟨halone, ⟨closes, hfirst⟩ | hlast⟩ := h
    · obtain ⟨halone', ⟨-, hfirst'⟩ | hlast'⟩ := h'
      · exact Nat.le_antisymm (hfirst i' paren' halone') (hfirst' i paren halone)
      · have opens := (hlast' i paren halone).1
        rw [closes] at opens
        cases opens
    · obtain ⟨halone', ⟨closes', -⟩ | hlast'⟩ := h'
      · have opens' := (hlast i' paren' halone').1
        rw [closes'] at opens'
        cases opens'
      · exact Nat.le_antisymm (hlast' i paren halone).2 (hlast i' paren' halone').2
  have hparen := h.1.1
  rw [hposition, h'.1.1] at hparen
  exact (Option.some.inj hparen).symm

/-- Nothing is alone in a paired list. -/
theorem Paired.not_isAlone (h : Paired parens) (i : Nat) (paren : Parenthesis) :
    ¬ IsAlone parens i paren := by
  rintro ⟨hparen, halone⟩
  obtain ⟨hi, -⟩ := List.getElem?_eq_some_iff.1 hparen
  have hpartner := h.hasPartner [] [] (Nat.zero_le i) (by simpa using hi)
  rw [List.append_nil] at hpartner
  exact halone hpartner

theorem isNamed_closing (hfront : Paired front) (closes : paren.isOpening = false)
    (rest : List Parenthesis) : IsNamed (front ++ paren :: rest) front.length paren := by
  refine ⟨isAlone_closing hfront closes rest, .inl ⟨closes, fun j other halone => ?_⟩⟩
  refine Nat.le_of_not_lt fun hj => halone.2 ?_
  exact hfront.hasPartner [] (paren :: rest) (Nat.zero_le j) (by simpa using hj)

theorem isNamed_opening {opened : List Parenthesis} (hfront : LeavesOpen opened front)
    (opens : paren.isOpening = true) (hinner : Paired inner) :
    IsNamed (front ++ paren :: inner) front.length paren := by
  refine ⟨isAlone_opening opens hinner front, .inr fun j other halone => ?_⟩
  rcases Nat.lt_trichotomy j front.length with hbefore | hself | hbehind
  · exact ⟨hfront.opens_of_isAlone (paren :: inner) hbefore halone, Nat.le_of_lt hbefore⟩
  · have hother := halone.1
    rw [hself, getElem?_length_append_cons] at hother
    exact ⟨Option.some.inj hother ▸ opens, Nat.le_of_eq hself⟩
  · -- What stands behind is paired.
    obtain ⟨hj, -⟩ := List.getElem?_eq_some_iff.1 halone.1
    rw [List.length_append, List.length_cons] at hj
    have hpartner := hinner.hasPartner (i := j) (front ++ [paren]) []
      (by rw [List.length_append, List.length_singleton]; omega)
      (by rw [List.length_append, List.length_singleton]; omega)
    rw [List.append_assoc, List.singleton_append, List.append_nil] at hpartner
    exact absurd hpartner halone.2

theorem culpritFrom_opening (opens : paren.isOpening = true) (opened : List Nat) :
    culpritFrom opened (paren :: rest) = culpritFrom (paren.line :: opened) rest := by
  simp only [culpritFrom, opens, if_true]

theorem culpritFrom_closing_nil (closes : paren.isOpening = false) :
    culpritFrom [] (paren :: rest) = some paren.line := by
  simp only [culpritFrom, closes, Bool.false_eq_true, if_false]

theorem culpritFrom_closing_cons (closes : paren.isOpening = false) (line : Nat)
    (opened : List Nat) :
    culpritFrom (line :: opened) (paren :: rest) = culpritFrom opened rest := by
  simp only [culpritFrom, closes, Bool.false_eq_true, if_false]

/-- The scan goes on with the openings that wait in what has been read. -/
theorem culpritFrom_cases {opened : List Parenthesis} (h : LeavesOpen opened front)
    (rest : List Parenthesis) :
    culpritFrom (opened.map (·.line)) rest = none ∧ Paired (front ++ rest) ∨
      ∃ i paren, culpritFrom (opened.map (·.line)) rest = some paren.line ∧
        IsNamed (front ++ rest) i paren := by
  induction rest generalizing opened front with
  | nil =>
      rw [List.append_nil]
      cases h with
      | paired hfront =>
          exact .inl ⟨rfl, hfront⟩
      | opening hfront opens hinner =>
          exact .inr ⟨_, _, rfl, isNamed_opening hfront opens hinner⟩
  | cons paren rest ih =>
      cases hopening : paren.isOpening with
      | true =>
          rw [culpritFrom_opening hopening, ← List.map_cons, List.append_cons]
          exact ih (.opening h hopening .nil)
      | false =>
          cases h with
          | paired hfront =>
              exact .inr ⟨_, paren, culpritFrom_closing_nil hopening,
                isNamed_closing hfront hopening rest⟩
          | @opening opened front inner opening hfront opens hinner =>
              -- The parenthesis is the partner of the latest opening that waits.
              have hpair : Paired (opening :: (inner ++ [paren])) :=
                .pair opens hopening hinner .nil
              have hnext := ih (hfront.append hpair)
              rw [List.map_cons, culpritFrom_closing_cons hopening]
              simpa using hnext

/-! ## Places in the text -/

theorem scan_singleton_cases (zone : Zone) (line : Nat) (c : Char) :
    scan zone line [c] = [] ∨
      zone = .code ∧ ∃ paren, scan zone line [c] = [paren] ∧ paren.line = line ∧
        c = if paren.isOpening then '(' else ')' := by
  cases zone with
  | code =>
      by_cases hopening : c = '('
      · subst hopening
        exact .inr ⟨rfl, _, rfl, rfl, rfl⟩
      · by_cases hclosing : c = ')'
        · subst hclosing
          exact .inr ⟨rfl, _, rfl, rfl, rfl⟩
        · left
          simp [scan, hopening, hclosing]
  | text =>
      exact .inl rfl
  | escape =>
      exact .inl rfl
  | comment =>
      exact .inl rfl

/-- Each parenthesis that is found stands at a place of its own in the text, outside of literals and
comments, and has the line of this place. -/
theorem exists_place_of_scan {zone : Zone} {line : Nat} {text : List Char}
    (h : scan zone line text = front ++ paren :: rest) :
    ∃ before c after, text = before ++ c :: after ∧ zone.after before = .code ∧
      scan zone line before = front ∧ c = (if paren.isOpening then '(' else ')') ∧
        paren.line = line + before.count '\n' := by
  induction text generalizing zone line front with
  | nil =>
      cases front <;> cases h
  | cons c text ih =>
      -- What is found behind the first character is found behind it in the whole text.
      have hbehind {front' : List Parenthesis} (hfront : front = scan zone line [c] ++ front')
          (hrest : scan (zone.next c) (line + [c].count '\n') text = front' ++ paren :: rest) :
          ∃ before c' after, c :: text = before ++ c' :: after ∧ zone.after before = .code ∧
            scan zone line before = front ∧ c' = (if paren.isOpening then '(' else ')') ∧
              paren.line = line + before.count '\n' := by
        obtain ⟨before, c', after, rfl, hcode, rfl, hc', hline⟩ := ih hrest
        have hsplit : scan zone line ([c] ++ before) = scan zone line [c] ++
            scan (zone.next c) (line + [c].count '\n') before :=
          scan_append zone line [c] before
        refine ⟨[c] ++ before, c', after, rfl, hcode, hsplit.trans hfront.symm, hc', ?_⟩
        rw [hline, List.count_append, Nat.add_assoc]
      have hsplit : scan zone line (c :: text) = scan zone line [c] ++
          scan (zone.next c) (line + [c].count '\n') text :=
        scan_append zone line [c] text
      rw [hsplit] at h
      rcases scan_singleton_cases zone line c with hnone | ⟨rfl, found, hfound, hline, hc⟩
      · rw [hnone, List.nil_append] at h
        exact hbehind (by rw [hnone, List.nil_append]) h
      · rw [hfound, List.singleton_append] at h
        cases front with
        | nil =>
            obtain ⟨rfl, -⟩ := List.cons.inj h
            exact ⟨[], c, text, rfl, rfl, rfl, hc, hline⟩
        | cons first front =>
            obtain ⟨rfl, hrest⟩ := List.cons.inj h
            exact hbehind (by rw [hfound, List.singleton_append]) hrest

/-- No parenthesis is named exactly where all have partners. Otherwise the line is named of the
first parenthesis without partner where that one closes, and else, as all without partner open, of
the last. A line is counted from one, by the line ends before the place of the parenthesis in the
text. -/
theorem culprit_spec (text : List Char) :
    let parens := ofChars text
    (culprit parens = none ↔ ∀ i < parens.length, HasPartner parens i) ∧
      (∀ line, culprit parens = some line ↔ ∃ i paren, IsNamed parens i paren ∧ paren.line = line) ∧
      ∀ i paren, parens[i]? = some paren →
        ∃ before c after, text = before ++ c :: after ∧ Zone.code.after before = .code ∧
          (ofChars before).length = i ∧ c = (if paren.isOpening then '(' else ')') ∧
            paren.line = lineAfter before := by
  intro parens
  -- Either all have partners and none is named, or the named one is the one to name; a text names
  -- one at most (`IsNamed.eq`), which gives the converses.
  have hcases := culpritFrom_cases (.paired .nil) parens
  rw [List.nil_append, List.map_nil] at hcases
  refine ⟨⟨fun hnone => ?_, fun hall => ?_⟩, fun line => ⟨fun hline => ?_, ?_⟩,
    fun i paren hi => ?_⟩
  · rcases hcases with ⟨-, hpaired⟩ | ⟨i, paren, hsome, -⟩
    · intro i hi
      by_contra halone
      exact hpaired.not_isAlone i parens[i] ⟨List.getElem?_eq_getElem hi, halone⟩
    · cases hnone.symm.trans hsome
  · rcases hcases with ⟨hnone, -⟩ | ⟨i, paren, -, ⟨hparen, halone⟩, -⟩
    · exact hnone
    · exact absurd (hall i (List.getElem?_eq_some_iff.1 hparen).1) halone
  · rcases hcases with ⟨hnone, -⟩ | ⟨i, paren, hsome, hnamed⟩
    · cases hnone.symm.trans hline
    · exact ⟨i, paren, hnamed, Option.some.inj (hsome.symm.trans hline)⟩
  · rintro ⟨i, paren, hnamed, rfl⟩
    rcases hcases with ⟨-, hpaired⟩ | ⟨i', paren', hsome, hnamed'⟩
    · exact absurd hnamed.1 (hpaired.not_isAlone i paren)
    · rw [hnamed.eq hnamed']
      exact hsome
  · obtain ⟨hlength, rfl⟩ := List.getElem?_eq_some_iff.1 hi
    have hsplit : parens = parens.take i ++ parens[i] :: parens.drop (i + 1) := by
      rw [List.getElem_cons_drop, List.take_append_drop]
    obtain ⟨before, c, after, htext, hcode, hfront, hc, hline⟩ := exists_place_of_scan hsplit
    refine ⟨before, c, after, htext, hcode, ?_, hc, ?_⟩
    · have htake := congrArg List.length hfront
      rw [List.length_take, Nat.min_eq_left (Nat.le_of_lt hlength)] at htake
      exact htake
    · rw [hline, lineAfter, Nat.add_comm]

/-- A closing parenthesis too many on the second line, and an open list behind it. -/
theorem culprit_spec_stray :
    let parens := ofChars "(a \")\")\n) (".toList
    culprit parens = some 2 ∧ ∃ i paren, IsNamed parens i paren ∧ paren.line = 2 := by
  intro parens
  have hline : culprit parens = some 2 := by decide
  obtain ⟨-, hnamed, -⟩ := culprit_spec "(a \")\")\n) (".toList
  exact ⟨hline, (hnamed 2).1 hline⟩

theorem exists_closing_of_hasPartner {i : Nat} (h : HasPartner parens i) :
    ∃ closing ∈ parens, closing.isOpening = false := by
  obtain ⟨j, ⟨front, opening, inner, closing, rest, rfl, -, closes, -⟩ |
    ⟨front, opening, inner, closing, rest, rfl, -, closes, -⟩⟩ := h
  · exact ⟨closing, by simp, closes⟩
  · exact ⟨closing, by simp, closes⟩

/-- Of two open lists the second is named, although the first has no partner either. -/
theorem culprit_spec_two_open :
    let parens := ofChars "(\n(".toList
    culprit parens = some 2 ∧ ∃ paren, IsAlone parens 0 paren ∧ paren.line = 1 := by
  intro parens
  have hparens : parens = [⟨true, 1⟩, ⟨true, 2⟩] := by decide
  refine ⟨by decide, ⟨true, 1⟩, ⟨by decide, fun hpartner => ?_⟩, rfl⟩
  obtain ⟨closing, hmem, closes⟩ := exists_closing_of_hasPartner hpartner
  rw [hparens, List.mem_cons, List.mem_singleton] at hmem
  rcases hmem with rfl | rfl <;> cases closes

end Parenthesis
end AssocLint
