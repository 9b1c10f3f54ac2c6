import WidgetScript.Proofs.Parser.Grammar
import WidgetScript.Proofs.Parser.Operators
import WidgetScript.Proofs.Token.Alike

/-! Where lines may be broken. A newline ends a statement, but a statement goes on behind a bracket
that opens, a comma, a colon, `=` and an infix operator, and before a bracket that closes. Two lists
of tokens are compared up to the newlines at such places. -/
namespace WidgetScript

def Token.joins : Token → Bool
  | .orKw | .andKw | .eqEq | .notEq | .lt | .le | .gt | .ge => true
  | .plus | .minus | .star | .slash => true
  | _ => false

def Token.endsValue : Token → Bool
  | .ident _ | .str _ | .number _ | .symbol _ | .trueKw | .falseKw | .nilKw => true
  | .rparen | .rbracket | .rbrace | .endKw => true
  | _ => false

/-- What the tokens so far come to. An operator is infix behind a value, and neither the name of a
function that is being defined nor its parameters are one. -/
inductive Lead where
  | fresh
  | value
  /-- Behind `def`. -/
  | define
  /-- Behind the name of the function. -/
  | header
  /-- Behind the parenthesis that opens its parameters. -/
  | params
deriving DecidableEq

def Lead.after : Lead → Token → Lead
  | .define, .ident _ => .header
  | .header, .lparen => .params
  | .params, .rparen => .fresh
  | .params, _ => .params
  | _, .defKw => .define
  | _, t => if t.endsValue then .value else .fresh

inductive Gap where
  | none
  /-- Any number before a bracket that closes. -/
  | closing
  | any
deriving DecidableEq

def Gap.allows : Gap → Token → Bool
  | .none, _ => false
  | .closing, t => t.closes
  | .any, _ => true

def Lead.gap : Lead → Token → Gap
  | _, .lparen | _, .lbracket | _, .lbrace | _, .comma | _, .colon | _, .assign => .any
  | .value, t => if t.joins then .any else .closing
  | _, _ => .closing

theorem Token.closes_of_joins {t : Token} (h : t.joins) : t.closes = false := by
  cases t <;> first | rfl | cases h

theorem Lead.after_of_joins {t : Token} (h : t.joins) : Lead.after .value t = .fresh := by
  cases t <;> first | rfl | cases h

theorem Lead.gap_of_joins {t : Token} (h : t.joins) : Lead.gap .value t = .any := by
  cases t <;> first | rfl | cases h

/-- The second list is the first with newlines put in where lines may be broken. Its tokens need
not stand in the same places. -/
inductive Reflowed : Lead → Gap → List Lexeme → List Lexeme → Prop where
  | nil {lead : Lead} {gap : Gap} {nl : List Lexeme} :
      Parser.Blank nl → (nl ≠ [] → gap.allows .eof) → Reflowed lead gap [] nl
  | cons {lead : Lead} {gap : Gap} {l l' : Lexeme} {nl ls ls' : List Lexeme} :
      Parser.Blank nl → (nl ≠ [] → gap.allows l.token) → l.Alike l' →
      Reflowed (lead.after l.token) (lead.gap l.token) ls ls' →
      Reflowed lead gap (l :: ls) (nl ++ l' :: ls')

namespace Reflowed
variable {lead lead' : Lead} {gap gap' : Gap} {ls ls' : List Lexeme}

theorem mono (h : Reflowed lead gap ls ls') (wider : ∀ t, gap.allows t → gap'.allows t) :
    Reflowed lead gap' ls ls' := by
  cases h with
  | nil blank allowed => exact .nil blank fun some => wider _ (allowed some)
  | cons blank allowed first rest =>
    exact .cons blank (fun some => wider _ (allowed some)) first rest

theorem aligned {l l' : Lexeme} (first : l.Alike l')
    (rest : Reflowed (lead.after l.token) (lead.gap l.token) ls ls') :
    Reflowed lead gap (l :: ls) (l' :: ls') :=
  @cons lead gap l l' [] ls ls' nofun (absurd rfl) first rest

theorem of_alike (h : List.Forall₂ Lexeme.Alike ls ls') (lead : Lead) (gap : Gap) :
    Reflowed lead gap ls ls' := by
  induction h generalizing lead gap with
  | nil => exact .nil nofun (absurd rfl)
  | @cons l l' ls ls' first _ ih =>
    exact .aligned first (ih (lead.after l.token) (lead.gap l.token))

theorem of_none (h : Reflowed lead .none ls ls') :
    ls = [] ∧ ls' = [] ∨ ∃ l l' rest rest', ls = l :: rest ∧ ls' = l' :: rest' ∧ l.Alike l' ∧
      Reflowed (lead.after l.token) (lead.gap l.token) rest rest' := by
  cases h with
  | nil blank allowed => exact .inl ⟨rfl, not_not.1 fun some => nomatch allowed some⟩
  | @cons _ _ l l' nl rest rest' blank allowed first behind =>
    obtain rfl : nl = [] := not_not.1 fun some => nomatch allowed some
    exact .inr ⟨l, l', rest, rest', rfl, rfl, first, behind⟩

theorem length_le (h : Reflowed lead gap ls ls') : ls.length ≤ ls'.length := by
  induction h with
  | nil => exact Nat.zero_le _
  | cons _ _ _ _ ih =>
    rw [List.length_append, List.length_cons, List.length_cons]
    omega

end Reflowed

theorem Parser.Blank.dropWhile {nl : List Lexeme} (h : Blank nl) (ls : List Lexeme) :
    (nl ++ ls).dropWhile (·.token = .newline) = ls.dropWhile (·.token = .newline) := by
  rw [List.dropWhile_append_of_pos]
  exact fun l hl => decide_eq_true (h l hl)

namespace TokenStream
variable {lead lead' : Lead} {gap gap' : Gap} {s s' : TokenStream}

def Broken (lead : Lead) (gap : Gap) (s s' : TokenStream) : Prop := Reflowed lead gap s.rest s'.rest

namespace Broken

theorem any (h : Broken lead gap s s') : Broken lead .any s s' := h.mono fun _ _ => rfl

theorem closing (h : Broken lead .none s s') : Broken lead .closing s s' := h.mono nofun

theorem relead (h : Broken lead gap s s') (after : lead.after s.peek = lead'.after s.peek)
    (wider : ∀ t, (lead.gap s.peek).allows t → (lead'.gap s.peek).allows t) :
    Broken lead' gap s s' := by
  obtain ⟨rest, p⟩ := s
  obtain ⟨rest', p'⟩ := s'
  change Reflowed lead gap rest rest' at h
  change Reflowed lead' gap rest rest'
  cases h with
  | nil blank allowed => exact .nil blank allowed
  | @cons _ _ l l' nl ls ls' blank allowed first rest =>
    change lead.after l.token = lead'.after l.token at after
    rw [after] at rest
    exact .cons blank allowed first (rest.mono wider)

theorem value (h : Broken .fresh gap s s') : Broken .value gap s s' := by
  refine h.relead ?_ ?_
  · cases s.peek <;> rfl
  · intro t
    cases s.peek <;> first | exact id | exact fun _ => rfl

theorem fresh_of_value (h : Broken .value gap s s') (ends : s.peek.joins = false) :
    Broken .fresh gap s s' := by
  refine h.relead ?_ ?_
  · cases s.peek <;> rfl
  · intro t
    cases ahead : s.peek <;> first | exact id | exact absurd (ahead ▸ ends) (by decide)

theorem fresh_of_header (h : Broken .header gap s s') (ahead : s.peek ≠ .lparen) :
    Broken .fresh gap s s' := by
  refine h.relead ?_ ?_
  · cases next : s.peek <;> first | rfl | exact absurd next ahead
  · intro t
    cases s.peek <;> exact id

theorem peek (h : Broken lead .none s s') : s.peek.Alike s'.peek := by
  obtain ⟨rest, p⟩ := s
  obtain ⟨rest', p'⟩ := s'
  rcases h.of_none with ⟨rfl, rfl⟩ | ⟨l, l', ls, ls', rfl, rfl, first, -⟩
  · exact .same _
  · exact first

theorem advance (h : Broken lead .none s s') :
    Broken (lead.after s.peek) (lead.gap s.peek) s.advance s'.advance := by
  obtain ⟨rest, p⟩ := s
  obtain ⟨rest', p'⟩ := s'
  rcases h.of_none with ⟨rfl, rfl⟩ | ⟨l, l', ls, ls', rfl, rfl, -, behind⟩
  · exact .nil nofun (absurd rfl)
  · exact behind

theorem peek_cases (h : Broken lead gap s s') :
    Broken lead .none s s' ∨
      gap.allows s.peek ∧ s'.peek = .newline ∧ Broken lead gap s s'.advance := by
  obtain ⟨rest, p⟩ := s
  obtain ⟨rest', p'⟩ := s'
  change Reflowed lead gap rest rest' at h
  cases h with
  | nil blank allowed =>
    cases rest' with
    | nil => exact .inl (.nil nofun (absurd rfl))
    | cons newline nl =>
      obtain ⟨here, blank⟩ := List.forall_mem_cons.1 blank
      have allowed := allowed (List.cons_ne_nil _ _)
      exact .inr ⟨allowed, here, .nil blank fun _ => allowed⟩
  | @cons _ _ l l' nl ls ls' blank allowed first behind =>
    cases nl with
    | nil => exact .inl (.aligned first behind)
    | cons newline nl =>
      obtain ⟨here, blank⟩ := List.forall_mem_cons.1 blank
      have allowed := allowed (List.cons_ne_nil _ _)
      exact .inr ⟨allowed, here, .cons blank (fun _ => allowed) first behind⟩

theorem align (h : Broken lead gap s s') (stuck : gap.allows s.peek = false) :
    Broken lead .none s s' := by
  rcases h.peek_cases with aligned | ⟨allowed, -⟩
  · exact aligned
  · exact absurd (stuck.symm.trans allowed) Bool.false_ne_true

theorem peek_iff {t : Token} (h : Broken lead gap s s') (stuck : gap.allows t = false)
    (plain : ∀ ss, t ≠ .str ss) (notLine : t ≠ .newline) : s.peek = t ↔ s'.peek = t := by
  constructor
  · rintro rfl
    exact ((h.align stuck).peek.eq_iff plain).1 rfl
  · rintro rfl
    rcases h.peek_cases with aligned | ⟨-, newline, -⟩
    · exact (aligned.peek.eq_iff plain).2 rfl
    · exact absurd newline notLine

theorem second (h : Broken .fresh .none s s') {name : String} (first : s.peek = .ident name) :
    s.second.Alike s'.second ∨ s.second.closes ∧ s'.second = .newline := by
  have passed := h.advance
  rw [first] at passed
  rcases passed.peek_cases with aligned | ⟨closes, newline, -⟩
  · exact .inl aligned.peek
  · exact .inr ⟨closes, newline⟩

theorem advance_second (h : Broken .fresh .none s s') {name : String} (first : s.peek = .ident name)
    (stuck : s.second.closes = false) :
    Broken (Lead.value.after s.second) (Lead.value.gap s.second) s.advance.advance
      s'.advance.advance := by
  have passed := h.advance
  rw [first] at passed
  exact (passed.align stuck).advance

theorem skipNewlines (h : Broken lead gap s s') (stable : lead.after .newline = lead) :
    Broken lead .none s.skipNewlines s'.skipNewlines := by
  obtain ⟨rest, p⟩ := s
  obtain ⟨rest', p'⟩ := s'
  change Reflowed lead gap rest rest' at h
  change Reflowed lead .none (rest.dropWhile _) (rest'.dropWhile _)
  induction rest generalizing gap rest' with
  | nil =>
    cases h with
    | nil blank _ =>
      rw [← List.append_nil rest', blank.dropWhile]
      exact .nil nofun (absurd rfl)
  | cons l ls ih =>
    cases h with
    | @cons _ _ _ l' nl _ ls' blank allowed first rest =>
      rw [blank.dropWhile, List.dropWhile_cons, List.dropWhile_cons]
      simp only [decide_eq_true_eq, first.eq_iff (t := .newline) (by simp)]
      split
      next newline =>
        rw [(first.eq_iff (by simp)).2 newline, stable] at rest
        exact ih ls' rest
      next => exact .aligned first rest

end Broken

end TokenStream
end WidgetScript
