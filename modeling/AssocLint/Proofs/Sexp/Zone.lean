import AssocLint.Sexp.Parentheses
import Mathlib.Data.List.Basic

/-!
# Text outside literals and comments

The zones of a text part it into literals, comments and the rest, its *code*. `codeChars` keeps the
characters of the code, and with them all parentheses that count. A text put together from two has
the parentheses of the one and then those of the other (`scan_append`), and a text without code has
none (`scan_eq_nil`).

A text is *closed* when it ends neither in a literal nor after a backslash in one.
-/

namespace AssocLint
namespace Parenthesis

/-- The zone after the characters of a text. -/
def Zone.after (zone : Zone) (text : List Char) : Zone :=
  text.foldl Zone.next zone

/-- The characters of a text that stand outside literals and comments. -/
def codeChars (zone : Zone) : List Char → List Char
  | [] => []
  | c :: rest =>
    if zone == .code then c :: codeChars (zone.next c) rest else codeChars (zone.next c) rest

/-- Every literal of a text has its closing quote. -/
def LiteralsClosed (text : List Char) : Prop :=
  Zone.code.after text ≠ .text ∧ Zone.code.after text ≠ .escape

@[simp] theorem Zone.after_nil (zone : Zone) : zone.after [] = zone :=
  rfl

@[simp] theorem Zone.after_cons (zone : Zone) (c : Char) (rest : List Char) :
    zone.after (c :: rest) = (zone.next c).after rest :=
  rfl

@[simp] theorem Zone.after_append (zone : Zone) (text rest : List Char) :
    zone.after (text ++ rest) = (zone.after text).after rest :=
  List.foldl_append

/-- A line end closes a comment, and nothing else. -/
theorem after_concat_newline_eq_code_iff (text : List Char) :
    Zone.code.after (text ++ ['\n']) = .code ↔ LiteralsClosed text := by
  unfold LiteralsClosed
  rw [Zone.after_append]
  cases Zone.code.after text <;> decide

theorem codeChars_append (zone : Zone) (text rest : List Char) :
    codeChars zone (text ++ rest) = codeChars zone text ++ codeChars (zone.after text) rest := by
  induction text generalizing zone with
  | nil =>
      rfl
  | cons c text ih =>
      simp only [List.cons_append, codeChars, ih, Zone.after_cons]
      split <;> rfl

theorem scan_append (zone : Zone) (line : Nat) (text rest : List Char) :
    scan zone line (text ++ rest) =
      scan zone line text ++ scan (zone.after text) (line + text.count '\n') rest := by
  induction text generalizing zone line with
  | nil =>
      rfl
  | cons c text ih =>
      have hline : (if c == '\n' then line + 1 else line) + text.count '\n' =
          line + (c :: text).count '\n' := by
        rw [List.count_cons]
        split <;> omega
      simp only [List.cons_append, scan, ih, Zone.after_cons, hline]
      split
      · rfl
      · split <;> rfl

/-- Only code has parentheses. -/
theorem scan_eq_nil {zone : Zone} {text : List Char} (line : Nat)
    (h : ∀ c ∈ codeChars zone text, c ≠ '(' ∧ c ≠ ')') : scan zone line text = [] := by
  induction text generalizing zone line with
  | nil =>
      rfl
  | cons c text ih =>
      cases hzone : zone == .code with
      | false =>
          simp only [codeChars, hzone, Bool.false_eq_true, if_false] at h
          simp only [scan, hzone, Bool.false_and, Bool.false_eq_true, if_false]
          exact ih _ h
      | true =>
          simp only [codeChars, hzone, if_true, List.forall_mem_cons] at h
          simp only [scan, hzone, beq_eq_false_iff_ne.2 h.1.1, beq_eq_false_iff_ne.2 h.1.2,
            Bool.and_false, Bool.false_eq_true, if_false]
          exact ih _ h.2

end Parenthesis
end AssocLint
