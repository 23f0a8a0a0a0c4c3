import Mathlib.Algebra.Field.Basic
import Distillation.Expr.Eval
import Distillation.Expr.Text
import Distillation.Proofs.Expr.Variables

namespace Distillation

/-- A factor of a product: one that is written out, of which the characters so far are kept, or one in parentheses, of
which the value is known. -/
inductive Factor (S : Type) where
  | literal (text : List Char)
  | group (x : S)

/-- What is known of a text that is read half-way. -/
structure Reader (S : Type) where
  /-- Outside of each parenthesis that is open: the sum so far, and what to do with the factor in the parenthesis. -/
  outer : List (S × (S → S))
  /-- The terms that are complete. -/
  total : S
  /-- Takes the factor at hand into the product. -/
  join : S → S
  factor : Factor S

namespace Reader

variable {S : Type} [Field S] (literal : List Char → S)

/-- The value of the term at hand, with its last factor as it stands. -/
def product (r : Reader S) : S :=
  match r.factor with
  | .literal text => r.join (literal text)
  | .group x => r.join x

/-- The value of the sum at hand. -/
def sum (r : Reader S) : S :=
  r.total + r.product literal

/-- Another character of a factor. -/
def extend (r : Reader S) (c : Char) : Reader S :=
  match r.factor with
  | .literal text => { r with factor := .literal (text ++ [c]) }
  | .group _ => r

def step (r : Reader S) : Char → Reader S
  | '(' => ⟨(r.total, r.join) :: r.outer, 0, id, .literal []⟩
  | ')' => match r.outer with
    | [] => r
    | (total, join) :: outer => ⟨outer, total, join, .group (r.sum literal)⟩
  | '+' => { r with total := r.sum literal, join := id, factor := .literal [] }
  | '*' => { r with join := (r.product literal * ·), factor := .literal [] }
  | '/' => { r with join := (r.product literal / ·), factor := .literal [] }
  | '-' => { r with join := fun x => r.join (-x) }
  | ' ' => r
  | c => r.extend c

def read (r : Reader S) (text : List Char) : Reader S :=
  text.foldl (step literal) r

def start : Reader S :=
  ⟨[], 0, id, .literal []⟩

theorem read_append (r : Reader S) (first second : List Char) :
    r.read literal (first ++ second) = (r.read literal first).read literal second :=
  List.foldl_append

/-- Characters that are part of a factor. -/
def isLiteral (c : Char) : Bool :=
  c.isDigit || c == '.' || c == 'v'

variable {literal}

theorem step_literal {c : Char} (own : isLiteral c = true) (r : Reader S) : r.step literal c = r.extend c := by
  rw [step.eq_def]
  split
  case h_8 => rfl
  all_goals cases own

/-- What is read so far is all but the factor at hand, of which no character has been read yet. -/
def Fresh (r : Reader S) : Prop :=
  r.factor = .literal []

theorem read_literal (text : List Char) : ∀ (r : Reader S) (before : List Char), r.factor = .literal before →
    (∀ c ∈ text, isLiteral c = true) → r.read literal text = { r with factor := .literal (before ++ text) } := by
  induction text with
  | nil =>
    intro r before here _
    rw [List.append_nil, ← here]
    rfl
  | cons c rest ih =>
    intro r before here own
    obtain ⟨first, later⟩ := List.forall_mem_cons.1 own
    have next : r.step literal c = { r with factor := .literal (before ++ [c]) } := by
      rw [step_literal first, extend, here]
    change (r.step literal c).read literal rest = _
    rw [next, ih _ (before ++ [c]) rfl later, List.append_assoc]
    rfl

variable (literal) in
/-- From one reader to another a product has been read, with the value `y`. -/
structure Takes (r r' : Reader S) (y : S) : Prop where
  outer : r'.outer = r.outer
  total : r'.total = r.total
  product : r'.product literal = y

theorem takes_literal {r : Reader S} (fresh : r.Fresh) {text : List Char} (own : ∀ c ∈ text, isLiteral c = true) :
    Takes literal r (r.read literal text) (r.join (literal text)) := by
  rw [read_literal text r [] fresh own]
  exact ⟨rfl, rfl, rfl⟩

/-- A parenthesis that is closed is the factor that was at hand when it was opened. -/
theorem takes_close {r r' : Reader S} (opened : r'.outer = (r.total, r.join) :: r.outer) :
    Takes literal r (r'.read literal [')']) (r.join (r'.sum literal)) := by
  have closed : r'.read literal [')'] = ⟨r.outer, r.total, r.join, .group (r'.sum literal)⟩ := by
    change r'.step literal ')' = _
    rw [step, opened]
  rw [closed]
  exact ⟨rfl, rfl, rfl⟩

end Reader

namespace Expr

variable {K S : Type} [Field S]

mutual

/-- The value that is found from left to right, each factor being taken into the product of those before it. -/
def leftward (lift : K → S) (x : VarId → S) (join : S → S) : Expr K → S
  | const c => join (lift c)
  | var v => join (x v)
  | sum terms => join (leftwardTerms lift x 0 terms)
  | product a b => leftward lift x (leftward lift x join a * ·) b
  | quotient a b => leftward lift x (leftward lift x join a / ·) b
  | neg a => leftward lift x (fun y => join (-y)) a

def leftwardTerms (lift : K → S) (x : VarId → S) (running : S) : List (Expr K) → S
  | [] => running
  | term :: rest => leftwardTerms lift x (running + leftward lift x id term) rest

end

/-- Every constant is as `P` says. -/
inductive Constants (P : K → Prop) : Expr K → Prop
  | const {c : K} (own : P c) : Constants P (const c)
  | var (v : VarId) : Constants P (var v)
  | sum {terms : List (Expr K)} (each : ∀ term ∈ terms, Constants P term) : Constants P (sum terms)
  | product {a b : Expr K} (first : Constants P a) (second : Constants P b) : Constants P (product a b)
  | quotient {a b : Expr K} (upper : Constants P a) (lower : Constants P b) : Constants P (quotient a b)
  | neg {a : Expr K} (inner : Constants P a) : Constants P (neg a)

/-- The number is written as a factor with a sign or without, which the reader takes for the number's value. -/
def Written (number : K → String) (lift : K → S) (literal : List Char → S) (c : K) : Prop :=
  ∃ text, (∀ c ∈ text, Reader.isLiteral c = true) ∧
    ((number c).toList = text ∧ lift c = literal text ∨ (number c).toList = '-' :: text ∧ lift c = -literal text)

section Text

open Reader

variable {number : K → String} {lift : K → S} {x : VarId → S} {literal : List Char → S}

theorem takes_const {c : K} (written : Written number lift literal c) {r : Reader S} (fresh : r.Fresh) :
    Takes literal r (r.read literal (number c).toList) (r.join (lift c)) := by
  obtain ⟨text, own, ⟨plain, value⟩ | ⟨signed, value⟩⟩ := written
  · rw [plain, value]
    exact takes_literal fresh own
  · rw [signed, value]
    obtain ⟨outer, total, product⟩ := takes_literal (r := { r with join := fun y => r.join (-y) }) fresh own
    exact ⟨outer, total, product⟩

theorem takes_var (named : ∀ v : VarId, literal ('v' :: Nat.toDigits 10 v) = x v) (v : VarId) {r : Reader S}
    (fresh : r.Fresh) : Takes literal r (r.read literal ("v" ++ toString v).toList) (r.join (x v)) := by
  have text : ("v" ++ toString v).toList = 'v' :: Nat.toDigits 10 v := by
    rw [String.toList_append]
    exact congrArg (_ ++ ·) Nat.toList_repr
  rw [text, ← named]
  refine takes_literal fresh (List.forall_mem_cons.2 ⟨rfl, fun c inside => ?_⟩)
  rw [isLiteral, Nat.isDigit_of_mem_toDigits (by decide) (by decide) inside]
  rfl

/-- Reading the text of an expression takes its value from left to right into the product at hand. -/
def Taken (number : K → String) (lift : K → S) (x : VarId → S) (literal : List Char → S) (e : Expr K) : Prop :=
  ∀ r : Reader S, r.Fresh → Takes literal r (r.read literal (e.text number).toList) (e.leftward lift x r.join)

/-- Between two parentheses the terms are added up, the last of them being still at hand. -/
theorem sum_read_textTerms (blank : literal [] = 0) (terms : List (Expr K))
    (each : ∀ term ∈ terms, Taken number lift x literal term) : ∀ r : Reader S, r.Fresh → r.join = id →
      (r.read literal (textTerms number terms).toList).outer = r.outer ∧
      (r.read literal (textTerms number terms).toList).sum literal = leftwardTerms lift x r.total terms := by
  induction terms with
  | nil =>
    intro r fresh new
    refine ⟨rfl, ?_⟩
    rw [textTerms, leftwardTerms]
    change r.total + r.product literal = r.total
    rw [Reader.product, fresh, new]
    exact (congrArg _ blank).trans (add_zero _)
  | cons term rest ih =>
    intro r fresh new
    obtain ⟨first, later⟩ := List.forall_mem_cons.1 each
    obtain ⟨outer, total, product⟩ := first r fresh
    cases rest with
    | nil =>
      rw [textTerms, leftwardTerms, leftwardTerms]
      exact ⟨outer, by rw [Reader.sum, total, product, new]⟩
    | cons next rest =>
      rw [textTerms, String.toList_append, String.toList_append, read_append, read_append]
      generalize r.read literal (term.text number).toList = r' at outer total product
      obtain ⟨outer', sum'⟩ := ih later ⟨r'.outer, r'.sum literal, id, .literal []⟩ rfl rfl
      rw [leftwardTerms, ← new, ← product, ← total, ← outer]
      exact ⟨outer', sum'⟩

/-- A sign of operation acts on the product that was read before it. -/
theorem Taken.operate {a b : Expr K} (first : Taken number lift x literal a) (second : Taken number lift x literal b)
    (symbol : String) (act : S → S → S) (acts : ∀ r : Reader S, r.read literal symbol.toList =
      { r with join := act (r.product literal), factor := .literal [] }) {r : Reader S} (fresh : r.Fresh) :
    Takes literal r (r.read literal (a.text number ++ symbol ++ b.text number).toList)
      (b.leftward lift x (act (a.leftward lift x r.join))) := by
  rw [String.toList_append, String.toList_append, read_append, read_append, acts]
  obtain ⟨outer, total, product⟩ := first r fresh
  generalize r.read literal (a.text number).toList = r' at outer total product
  obtain ⟨outer', total', product'⟩ := second { r' with join := act (r'.product literal), factor := .literal [] } rfl
  exact ⟨outer'.trans outer, total'.trans total, product'.trans (by rw [product])⟩

theorem taken_of_written (blank : literal [] = 0) (named : ∀ v : VarId, literal ('v' :: Nat.toDigits 10 v) = x v)
    {e : Expr K} (written : e.Constants (Written number lift literal)) : Taken number lift x literal e := by
  induction written with
  | const own =>
    intro r fresh
    rw [text, leftward]
    exact takes_const own fresh
  | var v =>
    intro r fresh
    rw [text, leftward]
    exact takes_var named v fresh
  | @sum terms _ ih =>
    intro r fresh
    rw [text, String.toList_append, String.toList_append, read_append, read_append, leftward]
    obtain ⟨outer, sum⟩ := sum_read_textTerms blank terms ih ⟨(r.total, r.join) :: r.outer, 0, id, .literal []⟩ rfl rfl
    rw [← sum]
    exact takes_close outer
  | product _ _ iha ihb =>
    intro r fresh
    rw [text, leftward]
    exact iha.operate ihb "*" (· * ·) (fun _ => rfl) fresh
  | quotient _ _ iha ihb =>
    intro r fresh
    rw [text, leftward]
    exact iha.operate ihb "/" (· / ·) (fun _ => rfl) fresh
  | neg _ ih =>
    intro r fresh
    rw [text, String.toList_append, read_append, leftward]
    obtain ⟨outer, total, product⟩ := ih { r with join := fun y => r.join (-y) } fresh
    exact ⟨outer, total, product⟩

end Text

section Value

/-- Written as one factor: everything that is not a product or a quotient, with its sign. -/
def isFactor : Expr K → Bool
  | product _ _ | quotient _ _ => false
  | neg a => a.isFactor
  | _ => true

/-- Whatever is divided by is written as one factor. -/
inductive SimplyDivided : Expr K → Prop
  | const (c : K) : SimplyDivided (const c)
  | var (v : VarId) : SimplyDivided (var v)
  | sum {terms : List (Expr K)} (each : ∀ term ∈ terms, SimplyDivided term) : SimplyDivided (sum terms)
  | product {a b : Expr K} (first : SimplyDivided a) (second : SimplyDivided b) : SimplyDivided (product a b)
  | quotient {a b : Expr K} (upper : SimplyDivided a) (lower : SimplyDivided b) (single : b.isFactor = true) :
      SimplyDivided (quotient a b)
  | neg {a : Expr K} (inner : SimplyDivided a) : SimplyDivided (neg a)

/-- Factors may be taken in one after another. -/
structure Stepwise (join : S → S) : Prop where
  mul : ∀ a b, join (a * b) = join a * b
  div : ∀ a b, join (a / b) = join a / b

theorem Stepwise.id : Stepwise (id : S → S) :=
  ⟨fun _ _ => rfl, fun _ _ => rfl⟩

theorem Stepwise.times (p : S) : Stepwise (p * ·) :=
  ⟨fun a b => (mul_assoc p a b).symm, fun a b => (mul_div_assoc p a b).symm⟩

theorem Stepwise.neg {join : S → S} (steps : Stepwise join) : Stepwise fun y => join (-y) :=
  ⟨fun a b => by rw [← neg_mul, steps.mul], fun a b => by rw [← neg_div, steps.div]⟩

variable [Zero K] {lift : K → S} {x : VarId → S}

theorem leftwardTerms_eq {terms : List (Expr K)}
    (each : ∀ term ∈ terms, term.leftward lift x id = term.evalWith lift x) : ∀ running,
      leftwardTerms lift x running terms = evalTerms lift x running terms := by
  induction terms with
  | nil => intro running; rw [leftwardTerms, evalTerms]
  | cons term rest ih =>
    intro running
    obtain ⟨first, later⟩ := List.forall_mem_cons.1 each
    rw [leftwardTerms, evalTerms, first, ih later]

/-- From left to right, an expression has its value: at once if it is one factor, and else where factors may be taken
in one after another, which excludes that it is divided by. -/
theorem leftward_eq (zero : lift 0 = 0) {e : Expr K} (simple : e.SimplyDivided) : ∀ join : S → S,
    Stepwise join ∨ e.isFactor = true → e.leftward lift x join = join (e.evalWith lift x) := by
  induction simple with
  | const c => intro join _; rw [leftward, evalWith]
  | var v => intro join _; rw [leftward, evalWith]
  | sum _ ih =>
    intro join _
    rw [leftward, evalWith, zero, leftwardTerms_eq fun term inside => ih term inside id (.inl .id)]
  | product _ _ iha ihb =>
    intro join steps
    have steps : Stepwise join := steps.resolve_right Bool.false_ne_true
    rw [leftward, evalWith, iha join (.inl steps), ihb _ (.inl (.times _)), steps.mul]
  | quotient _ _ single iha ihb =>
    intro join steps
    have steps : Stepwise join := steps.resolve_right Bool.false_ne_true
    rw [leftward, evalWith, iha join (.inl steps), ihb _ (.inr single), steps.div]
  | neg _ ih =>
    intro join steps
    rw [leftward, evalWith, ih _ (steps.imp_left Stepwise.neg)]

end Value

/-- Expressions with one text have one value from left to right. -/
theorem leftward_eq_of_text_eq {number : K → String} {lift : K → S} {x : VarId → S} {literal : List Char → S}
    {a b : Expr K} (blank : literal [] = 0) (named : ∀ v : VarId, literal ('v' :: Nat.toDigits 10 v) = x v)
    (written : a.Constants (Written number lift literal)) (written' : b.Constants (Written number lift literal))
    (same : a.text number = b.text number) : a.leftward lift x id = b.leftward lift x id := by
  have first := (taken_of_written blank named written .start rfl).product
  have second := (taken_of_written blank named written' .start rfl).product
  exact first.symm.trans (same ▸ second)

end Expr

end Distillation
