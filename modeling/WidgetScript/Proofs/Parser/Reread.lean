import WidgetScript.Proofs.Ast.Bare
import WidgetScript.Proofs.Outcome
import WidgetScript.Proofs.Parser.Breaks
import WidgetScript.Proofs.Parser.Stream

/-! The same tokens read twice, in other places, with lines broken elsewhere and with other levels
left. If the first reading succeeds, then so does the second and gives the same tree, unless it has
too few levels. There is one lemma for each parser, and the levels are put together from these by
induction. -/
namespace WidgetScript

/-- The second outcome is like the first if that is a success, or is excused. -/
inductive Retold {α β : Type} (excused : SyntaxError → Prop) (same : α → β → Prop) :
    Except SyntaxError α → Except SyntaxError β → Prop where
  | ok {a : α} {b : β} : same a b → Retold excused same (.ok a) (.ok b)
  | failed (e : SyntaxError) (r : Except SyntaxError β) : Retold excused same (.error e) r
  | tooDeep {e : SyntaxError} (r : Except SyntaxError α) :
      excused e → Retold excused same r (.error e)

namespace Retold
variable {α β γ δ : Type} {excused : SyntaxError → Prop} {same also : α → β → Prop}
  {same' : γ → δ → Prop} {r : Except SyntaxError α} {r' : Except SyntaxError β}

theorem bind {f : α → Except SyntaxError γ} {f' : β → Except SyntaxError δ}
    (first : Retold excused same r r')
    (next : ∀ a b, same a b → Retold excused same' (f a) (f' b)) :
    Retold excused same' (r >>= f) (r' >>= f') := by
  cases first with
  | ok h => exact next _ _ h
  | failed e r => exact .failed e _
  | tooDeep r h => exact .tooDeep _ h

theorem mono (h : Retold excused same r r') (weaker : ∀ a b, same a b → also a b) :
    Retold excused also r r' := by
  cases h with
  | ok h => exact .ok (weaker _ _ h)
  | failed => exact .failed _ _
  | tooDeep _ h => exact .tooDeep _ h

end Retold

theorem Shift.Outcomes.retold {α : Type} {m : Shift} {excused : SyntaxError → Prop}
    {same : α → α → Prop} {r r' : Except SyntaxError α} (h : m.Outcomes same r r') :
    Retold excused same r r' := by
  cases h with
  | ok h => exact .ok h
  | error => exact .failed _ _

/-- From streams as they are before, the second parser retells what the first one gives, and leaves
the streams as they are after it. The first goes only forward. -/
def Retells {α : Type} (excused : SyntaxError → Prop)
    (before after : TokenStream → TokenStream → Prop) (same : α → α → Prop) (m m' : Parse α) :
    Prop :=
  ∀ s s', before s s' → Retold excused
    (fun r r' => same r.1 r'.1 ∧ after r.2 r'.2 ∧ r.2.rest.length ≤ s.rest.length) (m s) (m' s')

namespace TokenStream

/-- The token is ahead in the first stream, and with no newline in front in the second. -/
def Faces (lead : Lead) (t : Token) (s s' : TokenStream) : Prop :=
  Broken lead .none s s' ∧ s.peek = t

theorem Faces.advance {lead : Lead} {t : Token} (s s' : TokenStream) (h : Faces lead t s s') :
    Broken (lead.after t) (lead.gap t) s.advance s'.advance := by
  obtain ⟨ahead, rfl⟩ := h
  exact ahead.advance

def Within (b : List Lexeme) (before : TokenStream → TokenStream → Prop) (s s' : TokenStream) :
    Prop :=
  before s s' ∧ s.rest.length < b.length

end TokenStream

namespace Retells
open Parse TokenStream
variable {α β : Type} {excused : SyntaxError → Prop}
  {before before' after after' behind : TokenStream → TokenStream → Prop} {m m' : Parse α}
  {same : α → α → Prop} {same' : β → β → Prop} {a a' : α} {fault : SyntaxFault} {lead : Lead}
  {gap : Gap} {t : Token}

theorem bind {f f' : α → Parse β} (first : Retells excused before after same m m')
    (next : ∀ a a', same a a' → Retells excused after behind same' (f a) (f' a')) :
    Retells excused before behind same' (m >>= f) (m' >>= f') := by
  intro s s' h
  refine (first s s' h).bind ?_
  rintro ⟨a, t⟩ ⟨a', t'⟩ ⟨value, ahead, shorter⟩
  refine (next a a' value t t' ahead).mono ?_
  exact fun r r' h => ⟨h.1, h.2.1, h.2.2.trans shorter⟩

theorem mono (h : Retells excused before after same m m')
    (stronger : ∀ s s', before' s s' → before s s') (weaker : ∀ s s', after s s' → after' s s') :
    Retells excused before' after' same m m' := by
  intro s s' ahead
  exact (h s s' (stronger s s' ahead)).mono fun r r' h => ⟨h.1, weaker _ _ h.2.1, h.2.2⟩

theorem of (h : Retells excused before after same m m')
    (stronger : ∀ s s', before' s s' → before s s') : Retells excused before' after same m m' :=
  h.mono stronger fun _ _ => id

theorem pure (h : same a a') : Retells excused before before same (pure a) (pure a') :=
  fun _ _ ahead => .ok ⟨h, ahead, Nat.le_refl _⟩

theorem stay (ahead : ∀ s s', before s s' → after s s') (h : same a a') :
    Retells excused before after same (Pure.pure a) (Pure.pure a') :=
  (pure h).of ahead

theorem map {f f' : α → β} (first : Retells excused before after same m m')
    (next : ∀ a a', same a a' → same' (f a) (f' a')) :
    Retells excused before after same' (f <$> m) (f' <$> m') :=
  first.bind fun a a' h => pure (next a a' h)

theorem fail : Retells excused before after same (fail fault) m' := fun _ _ _ => .failed _ _

theorem failAt {p : Position} : Retells excused before after same (failAt fault p t) m' :=
  fun _ _ _ => .failed _ _

theorem within {b : List Lexeme} (h : Retells excused before after same m m') :
    Retells excused (Within b before) (Within b after) same m m' := by
  rintro s s' ⟨ahead, enough⟩
  exact (h s s' ahead).mono fun r r' h => ⟨h.1, ⟨h.2.1, h.2.2.trans_lt enough⟩, h.2.2⟩

theorem pos {f f' : Position → Parse β}
    (h : ∀ p p', Retells excused before behind same' (f p) (f' p')) :
    Retells excused before behind same' (Parse.pos >>= f) (Parse.pos >>= f') :=
  fun s s' ahead => h _ _ s s' ahead

theorem peek {f f' : Token → Parse β}
    (h : ∀ t t', t.Alike t' → Retells excused (Faces lead t) behind same' (f t) (f' t')) :
    Retells excused (Broken lead .none) behind same' (Parse.peek >>= f) (Parse.peek >>= f') :=
  fun s s' ahead => h _ _ ahead.peek s s' ⟨ahead, rfl⟩

theorem faced {f f' : Token → Parse β} (plain : ∀ ss, t ≠ .str ss)
    (h : Retells excused (Faces lead t) behind same' (f t) (f' t)) :
    Retells excused (Faces lead t) behind same' (Parse.peek >>= f) (Parse.peek >>= f') := by
  rintro s s' ⟨ahead, rfl⟩
  rw [run_peek_bind, run_peek_bind, (ahead.peek.eq_iff plain).1 rfl]
  exact h s s' ⟨ahead, rfl⟩

theorem peek_closing {f f' : Token → Parse β}
    (h : ∀ t t', t.Alike t' → Retells excused (Faces lead t) behind same' (f t) (f' t'))
    (closing : ∀ t, t.closes →
      Retells excused (fun s s' => Broken lead .closing s s' ∧ s.peek = t) behind same' (f t)
        (f' .newline)) :
    Retells excused (Broken lead .closing) behind same' (Parse.peek >>= f) (Parse.peek >>= f') := by
  intro s s' ahead
  rcases ahead.peek_cases with aligned | ⟨closes, line, -⟩
  · exact h _ _ aligned.peek s s' ⟨aligned, rfl⟩
  · rw [run_peek_bind, run_peek_bind, line]
    exact closing _ closes s s' ⟨ahead, rfl⟩

theorem rounds {f f' : List Lexeme → Parse β}
    (lengths : ∀ s s', before s s' → s.rest.length ≤ s'.rest.length)
    (h : ∀ b b' : List Lexeme, b.length ≤ b'.length →
      Retells excused (Within b before) behind same' (f b) (f' b')) :
    Retells excused before behind same' (Parse.rounds >>= f) (Parse.rounds >>= f') :=
  fun s s' ahead => h s.budget s'.budget (Nat.succ_le_succ (lengths s s' ahead)) s s'
    ⟨ahead, s.lt_length_budget⟩

theorem advance {f f' : Unit → Parse β}
    (ahead : ∀ s s', before s s' → after s.advance s'.advance)
    (h : Retells excused after behind same' (f ()) (f' ())) :
    Retells excused before behind same' (Parse.advance >>= f) (Parse.advance >>= f') := by
  intro s s' b
  refine (h s.advance s'.advance (ahead s s' b)).mono fun r r' h => ⟨h.1, h.2.1, ?_⟩
  exact h.2.2.trans length_advance_le

theorem advance_two {s s' : TokenStream} (h : Retells excused before after same m m')
    (ahead : before s.advance.advance s'.advance.advance) :
    Retold excused
      (fun r r' => same r.1 r'.1 ∧ after r.2 r'.2 ∧ r.2.rest.length ≤ s.rest.length)
      (m s.advance.advance) (m' s'.advance.advance) := by
  refine (h _ _ ahead).mono fun r r' h => ⟨h.1, h.2.1, ?_⟩
  exact h.2.2.trans (length_advance_le.trans length_advance_le)

theorem advance_within {l : Lexeme} {b : List Lexeme} {s s' : TokenStream}
    (h : Retells excused (Within b before) after same m m') (ahead : before s.advance s'.advance)
    (notEnd : s.peek ≠ .eof) (enough : s.rest.length < (l :: b).length) :
    Retold excused
      (fun r r' => same r.1 r'.1 ∧ after r.2 r'.2 ∧ r.2.rest.length ≤ s.rest.length)
      (m s.advance) (m' s'.advance) := by
  have shorter := length_advance_lt notEnd
  refine (h _ _ ⟨ahead, ?_⟩).mono fun r r' h => ⟨h.1, h.2.1, h.2.2.trans shorter.le⟩
  exact shorter.trans_le (Nat.le_of_lt_succ enough)

theorem advanced (ahead : ∀ s s', before s s' → after s.advance s'.advance) :
    Retells excused before after (fun _ _ => True) Parse.advance Parse.advance :=
  fun s s' b => .ok ⟨trivial, ahead s s' b, length_advance_le⟩

theorem skipNewlines (lead : Lead) (stable : lead.after .newline = lead) :
    Retells excused (Broken lead gap) (Broken lead .none) (fun _ _ => True) Parse.skipNewlines
      Parse.skipNewlines :=
  fun _ _ ahead => .ok ⟨trivial, ahead.skipNewlines stable, (List.dropWhile_suffix _).length_le⟩

theorem expect (stuck : gap.allows t = false) (plain : ∀ ss, t ≠ .str ss) (notLine : t ≠ .newline) :
    Retells excused (Broken lead gap) (Broken (lead.after t) (lead.gap t)) (fun _ _ => True)
      (expect t) (expect t) := by
  intro s s' ahead
  rw [Parse.expect, run_peek_bind, run_peek_bind]
  by_cases here : s.peek = t
  · rw [if_pos here, if_pos ((ahead.peek_iff stuck plain notLine).1 here)]
    subst here
    exact advanced Faces.advance s s' ⟨ahead.align stuck, rfl⟩
  · rw [if_neg here]
    exact .failed _ _

theorem ident (lead' : Lead) (led : ∀ name, lead.after (.ident name) = lead')
    (stuck : ∀ name, gap.allows (.ident name) = false) :
    Retells excused (Broken lead gap) (Broken lead' .closing) (· = ·) ident ident := by
  intro s s' ahead
  rw [Parse.ident, run_peek_bind, run_peek_bind]
  generalize here : s.peek = t
  split
  next name =>
    have aligned := ahead.align (here ▸ stuck name)
    have passed := Faces.advance s s' ⟨aligned, here⟩
    have closing : lead.gap (.ident name) = .closing := by cases lead <;> rfl
    rw [led, closing] at passed
    rw [(aligned.peek.eq_iff (by simp)).1 here]
    exact .ok ⟨rfl, passed, length_advance_le⟩
  next => exact .failed _ _

theorem separator {close : Token} (plain : ∀ ss, close ≠ .str ss) :
    Retells excused (Broken .fresh .none) (Broken .fresh .any) (fun _ _ => True)
      (separator close fault) (separator close fault) := by
  rw [Parse.separator]
  refine peek fun t t' same => ?_
  cases same with
  | same t =>
    split
    · exact advanced Faces.advance
    · split
      · exact (pure trivial).of fun s s' h => h.1.any
      · exact fail
  | str =>
    simp only [(plain _).symm, if_false]
    exact fail

end Retells

namespace Parser
open TokenStream

abbrev RetellsExpr (excused : SyntaxError → Prop) (before after : TokenStream → TokenStream → Prop)
    (m m' : Parse Expr) : Prop :=
  Retells excused before after (fun e e' => e.bare = e'.bare) m m'

abbrev RetellsStmt (excused : SyntaxError → Prop) (before after : TokenStream → TokenStream → Prop)
    (m m' : Parse Stmt) : Prop :=
  Retells excused before after (fun d d' => d.bare = d'.bare) m m'

abbrev RetellsStmts (excused : SyntaxError → Prop) (before after : TokenStream → TokenStream → Prop)
    (m m' : Parse (List Stmt)) : Prop :=
  Retells excused before after (fun ss ss' => Stmt.bareAll ss = Stmt.bareAll ss') m m'

structure Level.Retells (excused : SyntaxError → Prop) (level level' : Level) : Prop where
  expr : RetellsExpr excused (Broken .fresh .closing) (Broken .fresh .closing)
    level.expr level'.expr
  body : ∀ {c c' : Closer}, (∀ t, c.accepts t = c'.accepts t) →
    RetellsStmts excused (Broken .fresh .any) (Broken .fresh .none) (level.body c) (level'.body c')
  unary : RetellsExpr excused (Broken .fresh .closing) (Broken .value .closing) level.unary
    level'.unary

theorem plainText?_bare (ss : List Segment) : plainText? (ss.map Segment.bare) = plainText? ss := by
  induction ss with
  | nil => rfl
  | cons segment ss ih => cases segment <;> simp [plainText?, Segment.bare, ih]

section
variable {excused : SyntaxError → Prop} {inner inner' : Level}
  (level : inner.Retells excused inner') {p p' : Position}
  {before : TokenStream → TokenStream → Prop}
include level

theorem hole_retold (source : String) :
    Retold excused (fun e e' => e.bare = e'.bare) (hole inner source p)
      (hole inner' source p') := by
  rw [hole, hole]
  refine (Lexer.tokenizeAt_alike source p p').retold.bind fun ls ls' lexed => ?_
  have ahead : Broken .fresh .none (TokenStream.ofList ls) (TokenStream.ofList ls') :=
    .of_alike lexed _ _
  have aligned := ahead.skipNewlines rfl
  dsimp only
  simp only [aligned.peek.eq_iff (t := .eof) (by simp)]
  split
  · exact .failed _ _
  · refine (level.expr _ _ aligned.closing).bind ?_
    rintro ⟨e, s⟩ ⟨e', s'⟩ ⟨value, behind, -⟩
    dsimp only
    simp only [(behind.skipNewlines rfl).peek.eq_iff (t := .eof) (by simp)]
    split
    · exact .ok value
    · exact .failed _ _

theorem parts_retold {ss ss' : List Segment} (same : ss.map Segment.bare = ss'.map Segment.bare) :
    Retold excused (fun ps ps' => Part.bareAll ps = Part.bareAll ps') (parts inner ss)
      (parts inner' ss') := by
  induction ss generalizing ss' with
  | nil =>
    cases ss' with
    | nil => exact .ok rfl
    | cons => cases same
  | cons segment ss ih =>
    cases ss' with
    | nil => cases same
    | cons segment' ss' =>
      obtain ⟨first, same'⟩ := List.cons.inj same
      cases segment with
      | text t =>
        cases segment' with
        | placeholder => cases first
        | text t' =>
          cases first
          exact (ih same').bind fun ps ps' rest => .ok (by rw [Part.bareAll, Part.bareAll, rest])
      | placeholder source p =>
        cases segment' with
        | text => cases first
        | placeholder source' p' =>
          cases first
          refine (hole_retold level source).bind fun e e' value => ?_
          refine (ih same').bind fun ps ps' rest => .ok ?_
          rw [Part.bareAll, Part.bareAll, Part.bare, Part.bare, value, rest]

theorem string_retells {ss ss' : List Segment}
    (same : ss.map Segment.bare = ss'.map Segment.bare) :
    RetellsExpr excused before before (string inner ss p) (string inner' ss' p') := by
  intro s s' ahead
  unfold string
  rw [← plainText?_bare ss, same, plainText?_bare ss']
  split
  · exact .ok ⟨rfl, ahead, Nat.le_refl _⟩
  · refine (parts_retold level same).bind fun ps ps' parts => .ok ⟨?_, ahead, Nat.le_refl _⟩
    exact congrArg (Expr.interpolated · .none) parts

theorem items_retells {b b' : List Lexeme} (rounds : b.length ≤ b'.length) :
    Retells excused (Broken .fresh .any) (Faces .fresh .rbracket)
      (fun es es' => Expr.bareAll es = Expr.bareAll es') (items inner b) (items inner' b') := by
  induction b generalizing b' with
  | nil => exact .fail
  | cons l b ih =>
    obtain ⟨l', b', rfl⟩ := List.exists_cons_of_length_pos (Nat.zero_lt_of_lt rounds)
    have ih := ih (Nat.le_of_succ_le_succ rounds)
    rw [items, items]
    refine (Retells.skipNewlines .fresh rfl).bind fun _ _ _ => .peek fun t t' same => ?_
    simp only [← same.eq_iff (t := .rbracket) (by simp)]
    split
    next ends =>
      subst ends
      exact .pure rfl
    · refine (level.expr.of fun s s' h => h.1.closing).bind fun e e' first => ?_
      refine (Retells.skipNewlines .fresh rfl).bind fun _ _ _ => ?_
      refine (Retells.separator (by simp)).bind fun _ _ _ => ih.bind fun es es' rest => .pure ?_
      rw [Expr.bareAll, Expr.bareAll, first, rest]

theorem list_retells :
    RetellsExpr excused (Broken .fresh .any) (Broken .value .closing) (list inner p)
      (list inner' p') := by
  rw [list, list]
  refine .rounds (fun _ _ => Reflowed.length_le) fun b b' rounds => ?_
  refine ((items_retells level rounds).of fun s s' h => h.1).bind fun es es' items => ?_
  exact .advance Faces.advance (.pure (by rw [Expr.bare, Expr.bare, items]))

omit level in
theorem eq_text_of_bare {ss : List Segment} {text : String}
    (h : ss.map Segment.bare = [.text text]) : ss = [.text text] := by
  match ss, h with
  | [.text _], h =>
    cases h
    rfl

omit level in
theorem mapKey_retells :
    Retells excused (Broken .fresh .none) (Broken .value .closing) (· = ·) mapKey mapKey := by
  rw [mapKey]
  refine .pos fun p p' => .peek fun t t' same => .advance Faces.advance ?_
  cases same with
  | same t =>
    split
    · exact .pure rfl
    · exact .pure rfl
    · exact .failAt
    · exact .failAt
  | @str ss ss' same =>
    by_cases text : ∃ key, ss = [.text key]
    · obtain ⟨key, rfl⟩ := text
      rw [eq_text_of_bare same.symm]
      exact .pure rfl
    · split
      next h => exact nomatch h
      next h =>
        cases h
        exact absurd ⟨_, rfl⟩ text
      · exact .failAt
      · exact .failAt

theorem entries_retells {b b' : List Lexeme} (rounds : b.length ≤ b'.length) (seen : List String) :
    Retells excused (Broken .fresh .any) (Faces .fresh .rbrace)
      (fun es es' => Entry.bareAll es = Entry.bareAll es') (entries inner b seen)
      (entries inner' b' seen) := by
  induction b generalizing b' seen with
  | nil => exact .fail
  | cons l b ih =>
    obtain ⟨l', b', rfl⟩ := List.exists_cons_of_length_pos (Nat.zero_lt_of_lt rounds)
    rw [entries, entries]
    refine (Retells.skipNewlines .fresh rfl).bind fun _ _ _ => .peek fun t t' same => ?_
    simp only [← same.eq_iff (t := .rbrace) (by simp)]
    split
    next ends =>
      subst ends
      exact .pure rfl
    · refine .pos fun p p' => (mapKey_retells.of fun s s' h => h.1).bind fun key _ same => ?_
      cases same
      split
      · exact .failAt
      · refine (Retells.expect rfl (by simp) (by simp)).bind fun _ _ _ => ?_
        refine (Retells.skipNewlines .fresh rfl).bind fun _ _ _ => ?_
        refine (level.expr.of fun s s' => Broken.closing).bind fun e e' first => ?_
        refine (Retells.skipNewlines .fresh rfl).bind fun _ _ _ => ?_
        refine (Retells.separator (by simp)).bind fun _ _ _ => ?_
        refine (ih (Nat.le_of_succ_le_succ rounds) _).bind fun es es' rest => .pure ?_
        rw [Entry.bareAll, Entry.bareAll, Entry.bare, Entry.bare, first, rest]

theorem map_retells :
    RetellsExpr excused (Broken .fresh .any) (Broken .value .closing) (map inner p)
      (map inner' p') := by
  rw [map, map]
  refine .rounds (fun _ _ => Reflowed.length_le) fun b b' rounds => ?_
  refine ((entries_retells level rounds []).of fun s s' h => h.1).bind fun es es' entries => ?_
  exact .advance Faces.advance (.pure (by rw [Expr.bare, Expr.bare, entries]))

theorem block_retells {t : Token} (opens : t = .doKw ∨ t = .lbrace) :
    Retells excused (Faces .value t) (Broken .value .closing) (fun b b' => b.bare = b'.bare)
      (block inner) (block inner') := by
  have body (d : Delimiter) {c c' : Closer} {p p' : Position}
      (accepts : ∀ t, c.accepts t = c'.accepts t) :
      Retells excused (Broken .fresh .any) (Broken .value .closing) (fun b b' => b.bare = b'.bare)
        (do
          let ss ← inner.body c
          Parse.expect d.closer
          pure (Block.mk d ss p))
        (do
          let ss ← inner'.body c'
          Parse.expect d.closer
          pure (Block.mk d ss p')) := by
    refine (level.body accepts).bind fun ss ss' body => ?_
    cases d
    all_goals
      refine (Retells.expect rfl (by simp [Delimiter.closer]) (by simp [Delimiter.closer])).bind
        fun _ _ _ => .pure ?_
      rw [Block.bare, Block.bare, body]
  rw [block, block]
  refine .pos fun p p' => ?_
  rcases opens with rfl | rfl
  · refine .faced (by simp) (.advance (fun s s' h => (Faces.advance s s' h).any) ?_)
    exact body .doEnd fun t => by cases t <;> rfl
  · refine .faced (by simp) (.advance (fun s s' h => (Faces.advance s s' h).any) ?_)
    exact body .braces fun t => by cases t <;> rfl

def SameArguments (as as' : List Argument) : Prop :=
  Expr.bareAll (as.filterMap (·.positional?)) = Expr.bareAll (as'.filterMap (·.positional?)) ∧
    Entry.bareAll (as.filterMap (·.keyword?)) = Entry.bareAll (as'.filterMap (·.keyword?))

omit level in
theorem SameArguments.positional {e e' : Expr} {as as' : List Argument} (first : e.bare = e'.bare)
    (rest : SameArguments as as') :
    SameArguments (.positional e :: as) (.positional e' :: as') := by
  refine ⟨?_, rest.2⟩
  change e.bare :: Expr.bareAll _ = e'.bare :: Expr.bareAll _
  rw [first, rest.1]

omit level in
theorem SameArguments.keyword {e e' : Expr} {as as' : List Argument} (key : String)
    (first : e.bare = e'.bare) (rest : SameArguments as as') :
    SameArguments (.keyword (.mk key e p) :: as) (.keyword (.mk key e' p') :: as') := by
  refine ⟨rest.1, ?_⟩
  change Entry.mk key e.bare .none :: Entry.bareAll _ = .mk key e'.bare .none :: Entry.bareAll _
  rw [first, rest.2]

theorem arguments_retells {name : String} {b b' : List Lexeme} (rounds : b.length ≤ b'.length)
    (seen : List String) :
    Retells excused (Broken .fresh .any) (Faces .fresh .rparen) SameArguments
      (arguments inner name b seen) (arguments inner' name b' seen) := by
  induction b generalizing b' seen with
  | nil => exact .fail
  | cons l b ih =>
    obtain ⟨l', b', rfl⟩ := List.exists_cons_of_length_pos (Nat.zero_lt_of_lt rounds)
    have ih := @ih b' (Nat.le_of_succ_le_succ rounds)
    have positional : Retells excused (Broken .fresh .closing) (Faces .fresh .rparen) SameArguments
        (do
          let value ← inner.expr
          Parse.skipNewlines
          Parse.separator .rparen (.unclosedCall name)
          let rest ← arguments inner name b seen
          pure (.positional value :: rest))
        (do
          let value ← inner'.expr
          Parse.skipNewlines
          Parse.separator .rparen (.unclosedCall name)
          let rest ← arguments inner' name b' seen
          pure (.positional value :: rest)) := by
      refine level.expr.bind fun e e' first => ?_
      refine (Retells.skipNewlines .fresh rfl).bind fun _ _ _ => ?_
      refine (Retells.separator (by simp)).bind fun _ _ _ => (ih seen).bind fun as as' rest => ?_
      exact .pure (.positional first rest)
    have keyword (key : String) (p p' : Position) :
        Retells excused (Broken .fresh .any) (Faces .fresh .rparen) SameArguments
        (do
          Parse.skipNewlines
          let value ← inner.expr
          Parse.skipNewlines
          Parse.separator .rparen (.unclosedCall name)
          let rest ← arguments inner name b (key :: seen)
          pure (.keyword (.mk key value p) :: rest))
        (do
          Parse.skipNewlines
          let value ← inner'.expr
          Parse.skipNewlines
          Parse.separator .rparen (.unclosedCall name)
          let rest ← arguments inner' name b' (key :: seen)
          pure (.keyword (.mk key value p') :: rest)) := by
      refine (Retells.skipNewlines .fresh rfl).bind fun _ _ _ => ?_
      refine (level.expr.of fun s s' => Broken.closing).bind fun e e' first => ?_
      refine (Retells.skipNewlines .fresh rfl).bind fun _ _ _ => ?_
      refine (Retells.separator (by simp)).bind fun _ _ _ => (ih _).bind fun as as' rest => ?_
      exact .pure (.keyword key first rest)
    rw [arguments, arguments]
    refine (Retells.skipNewlines .fresh rfl).bind fun _ _ _ s s' ahead => ?_
    rw [Parse.run_get_bind, Parse.run_get_bind]
    have first := ahead.peek
    have second := @ahead.second
    have passed := @ahead.advance_second
    generalize s.pos = p
    generalize s'.pos = p'
    generalize here : s.peek = t at first second passed
    generalize s'.peek = t' at first
    generalize s.second = u at second passed
    generalize s'.second = u' at second
    cases first with
    | str => exact positional s s' ahead.closing
    | same t =>
      cases t with
      | rparen => exact .ok ⟨⟨rfl, rfl⟩, ⟨ahead, here⟩, Nat.le_refl _⟩
      | ident key =>
        rcases second rfl with same | ⟨closes, rfl⟩
        · cases same with
          | str => exact positional s s' ahead.closing
          | same u =>
            cases u with
            | colon =>
              dsimp only
              split
              · exact .failed _ _
              · exact (keyword key p p').advance_two (passed rfl rfl)
            | _ => exact positional s s' ahead.closing
        · cases u <;> first | exact positional s s' ahead.closing | cases closes
      | _ => exact positional s s' ahead.closing

theorem call_retells (name : String) :
    RetellsExpr excused (Faces .value .lparen) (Broken .value .closing) (call inner name p)
      (call inner' name p') := by
  rw [call, call]
  refine .advance Faces.advance (.rounds (fun _ _ => Reflowed.length_le) fun b b' rounds => ?_)
  refine ((arguments_retells level rounds []).of fun s s' h => h.1).bind fun as as' given => ?_
  refine .advance Faces.advance ?_
  have done {blk blk' : Option Block} (same : Block.bare? blk = Block.bare? blk') :
      (Expr.call name (as.filterMap (·.positional?)) (as.filterMap (·.keyword?)) blk p).bare =
        (Expr.call name (as'.filterMap (·.positional?)) (as'.filterMap (·.keyword?)) blk'
          p').bare := by
    rw [Expr.bare, Expr.bare, given.1, given.2, same]
  have block {t : Token} (opens : t = .doKw ∨ t = .lbrace) :
      Retells excused (Faces .value t) (Broken .value .closing)
        (fun b b' => Block.bare? b = Block.bare? b') (some <$> block inner)
        (some <$> block inner') :=
    (block_retells level opens).map fun b b' same => congrArg some same
  have none : Retells excused (Broken .value .closing) (Broken .value .closing)
      (fun b b' => Block.bare? b = Block.bare? b') (pure none) (pure none) := .pure rfl
  refine .peek_closing (fun t t' same => ?_) fun t closes => ?_
  · cases same with
    | str => exact (none.of fun s s' h => h.1.closing).bind fun b b' same => .pure (done same)
    | same t =>
      split
      · exact (block (.inl rfl)).bind fun b b' same => .pure (done same)
      · exact (block (.inr rfl)).bind fun b b' same => .pure (done same)
      · exact (none.of fun s s' h => h.1.closing).bind fun b b' same => .pure (done same)
  · have none := none.of fun s s' (h : Broken .value .closing s s' ∧ s.peek = t) => h.1
    cases t <;> first | exact none.bind fun b b' same => .pure (done same) | cases closes

theorem primary_retells :
    RetellsExpr excused (Broken .fresh .closing) (Broken .value .closing) (primary inner)
      (primary inner') := by
  rw [primary, primary]
  refine .pos fun p p' => .peek_closing (fun t t' same => .advance Faces.advance ?_) ?_
  · cases same with
    | str same => exact string_retells level same
    | same t =>
      split
      iterate 5 exact .pure rfl
      · exact string_retells level rfl
      next name =>
        have alone : RetellsExpr excused (Broken .value .closing) (Broken .value .closing)
          (pure (.ident name p)) (pure (.ident name p')) := .pure rfl
        refine .peek_closing (fun t t' same => ?_) fun t closes => ?_
        · cases same with
          | str => exact alone.of fun s s' h => h.1.closing
          | same t =>
            split
            · exact call_retells level name
            · refine (block_retells level (.inl rfl)).bind fun b b' block => .pure ?_
              rw [Expr.bare, Expr.bare, Block.bare?, Block.bare?, block]
            · exact alone.of fun s s' h => h.1.closing
        · have alone := alone.of fun s s' (h : Broken .value .closing s s' ∧ s.peek = t) => h.1
          cases t <;> first | exact alone | cases closes
      · exact list_retells level
      · exact map_retells level
      · refine (Retells.skipNewlines .fresh rfl).bind fun _ _ _ => ?_
        refine (level.expr.of fun s s' => Broken.closing).bind fun e e' value => ?_
        refine (Retells.skipNewlines .fresh rfl).bind fun _ _ _ => ?_
        exact (Retells.expect rfl (by simp) (by simp)).bind fun _ _ _ => .pure value
      · exact .failAt
  · -- No value starts with a bracket that closes.
    intro t closes s s' _
    cases t <;> first | exact .failed _ _ | cases closes

theorem accesses_retells {b b' : List Lexeme} (rounds : b.length ≤ b'.length) {e e' : Expr}
    (target : e.bare = e'.bare) :
    RetellsExpr excused (Within b (Broken .value .closing)) (Broken .value .closing)
      (accesses inner b e) (accesses inner' b' e') := by
  induction b generalizing b' e e' with
  | nil => exact fun s s' h => absurd h.2 (Nat.not_lt_zero _)
  | cons l b ih =>
    obtain ⟨l', b', rfl⟩ := List.exists_cons_of_length_pos (Nat.zero_lt_of_lt rounds)
    have ih {e e' : Expr} := @ih b' (Nat.le_of_succ_le_succ rounds) e e'
    have index (p p' : Position) :
        RetellsExpr excused (Within b (Broken .fresh .any)) (Broken .value .closing)
        (do
          Parse.skipNewlines
          let key ← inner.expr
          Parse.skipNewlines
          Parse.expect .rbracket
          accesses inner b (.index e key p))
        (do
          Parse.skipNewlines
          let key ← inner'.expr
          Parse.skipNewlines
          Parse.expect .rbracket
          accesses inner' b' (.index e' key p')) := by
      refine (Retells.skipNewlines .fresh rfl).within.bind fun _ _ _ => ?_
      refine (level.expr.of fun s s' => Broken.closing).within.bind fun k k' key => ?_
      refine (Retells.skipNewlines .fresh rfl).within.bind fun _ _ _ => ?_
      refine (Retells.expect rfl (by simp) (by simp)).within.bind fun _ _ _ => ih ?_
      rw [Expr.bare, Expr.bare, target, key]
    have field (p p' : Position) :
        RetellsExpr excused (Within b (Broken .fresh .closing)) (Broken .value .closing)
        (do
          let name ← Parse.ident
          accesses inner b (.field e name p))
        (do
          let name ← Parse.ident
          accesses inner' b' (.field e' name p')) := by
      refine (Retells.ident .value (fun _ => rfl) fun _ => rfl).within.bind fun name _ same => ih ?_
      cases same
      rw [Expr.bare, Expr.bare, target]
    rw [accesses, accesses]
    refine .pos fun p p' s s' h => ?_
    obtain ⟨ahead, enough⟩ := h
    have done : Retold excused (fun r r' => r.1.bare = r'.1.bare ∧ Broken .value .closing r.2 r'.2 ∧
        r.2.rest.length ≤ s.rest.length) (.ok (e, s)) (.ok (e', s')) :=
      .ok ⟨target, ahead, Nat.le_refl _⟩
    rw [Parse.run_peek_bind, Parse.run_peek_bind]
    rcases ahead.peek_cases with aligned | ⟨closes, newline, -⟩
    · have same := aligned.peek
      have passed := aligned.advance
      generalize here : s.peek = t at same passed
      generalize s'.peek = t' at same
      cases same with
      | str => exact done
      | same t =>
        have notEnd (first : t ≠ .eof) : s.peek ≠ .eof := here ▸ first
        cases t with
        | lbracket => exact (index p p').advance_within passed (notEnd (by simp)) enough
        | dot => exact (field p p').advance_within passed (notEnd (by simp)) enough
        | _ => exact done
    · rw [newline]
      generalize s.peek = t at closes
      cases t <;> first | exact done | cases closes

theorem unary_retells :
    RetellsExpr excused (Broken .fresh .closing) (Broken .value .closing) (unary inner)
      (unary inner') := by
  have postfixed : RetellsExpr excused (Broken .fresh .closing) (Broken .value .closing)
      (postfixed inner) (postfixed inner') :=
    (primary_retells level).bind fun e e' target =>
      .rounds (fun _ _ => Reflowed.length_le) fun b b' rounds =>
        accesses_retells level rounds target
  have faced {t : Token} : RetellsExpr excused (Faces .fresh t) (Broken .value .closing)
      (Parser.postfixed inner) (Parser.postfixed inner') :=
    postfixed.of fun s s' h => h.1.closing
  rw [unary, unary]
  refine .pos fun p p' => .peek_closing (fun t t' same => ?_) fun t closes => ?_
  · cases same with
    | str => exact faced
    | same t =>
      split
      next op prefixes =>
        refine .advance (fun s s' h => ?_) (level.unary.bind fun e e' operand => .pure ?_)
        · have passed := Faces.advance s s' h
          cases t <;> first | exact passed | cases prefixes
        · rw [Expr.bare, Expr.bare, operand]
      next => exact faced
  · have none : prefixOp? t = none := by cases t <;> first | rfl | cases closes
    rw [none]
    exact postfixed.of fun s s' h => h.1

def Done (tiers : List (Token → Option BinaryOp)) (s s' : TokenStream) : Prop :=
  Broken .value .closing s s' ∧ ∀ tier ∈ tiers, tier s.peek = none

omit level in
theorem chain_retells {tiers : List (Token → Option BinaryOp)} {op? : Token → Option BinaryOp}
    (joins : ∀ t op, op? t = some op → t.joins) {operand operand' : Parse Expr}
    (reads : RetellsExpr excused (Broken .fresh .closing) (Done tiers) operand operand')
    {b b' : List Lexeme} (rounds : b.length ≤ b'.length) {e e' : Expr} (lhs : e.bare = e'.bare) :
    RetellsExpr excused (Within b (Done tiers)) (Done (op? :: tiers)) (chain op? operand b e)
      (chain op? operand' b' e') := by
  have unjoined {t : Token} (h : t.joins = false) : op? t = none :=
    Option.eq_none_iff_forall_ne_some.2 fun op found => by
      rw [joins t op found] at h
      cases h
  induction b generalizing b' e e' with
  | nil => exact fun s s' h => absurd h.2 (Nat.not_lt_zero _)
  | cons l b ih =>
    obtain ⟨l', b', rfl⟩ := List.exists_cons_of_length_pos (Nat.zero_lt_of_lt rounds)
    have rest (op : BinaryOp) (p p' : Position) :
        RetellsExpr excused (Within b (Broken .fresh .any)) (Done (op? :: tiers))
        (do
          Parse.skipNewlines
          let rhs ← operand
          chain op? operand b (.binary op e rhs p))
        (do
          Parse.skipNewlines
          let rhs ← operand'
          chain op? operand' b' (.binary op e' rhs p')) := by
      refine (Retells.skipNewlines .fresh rfl).within.bind fun _ _ _ => ?_
      refine (reads.of fun s s' => Broken.closing).within.bind fun r r' rhs => ?_
      refine ih (Nat.le_of_succ_le_succ rounds) ?_
      rw [Expr.bare, Expr.bare, lhs, rhs]
    rintro s s' ⟨⟨ahead, ended⟩, enough⟩
    rw [chain, chain, Parse.run_peek_bind, Parse.run_peek_bind]
    cases found : op? s.peek with
    | none =>
      have none : op? s'.peek = none := by
        rcases ahead.peek_cases with aligned | ⟨-, newline, -⟩
        · have same := aligned.peek
          generalize s.peek = t at same found
          generalize s'.peek = t' at same
          cases same with
          | same => exact found
          | str => exact unjoined rfl
        · exact newline ▸ unjoined rfl
      rw [none]
      exact .ok ⟨lhs, ⟨ahead, List.forall_mem_cons.2 ⟨found, ended⟩⟩, Nat.le_refl _⟩
    | some op =>
      have joined := joins _ _ found
      have aligned := ahead.align (Token.closes_of_joins joined)
      have passed := aligned.advance
      rw [Lead.after_of_joins joined, Lead.gap_of_joins joined] at passed
      have same := aligned.peek
      generalize here : s.peek = t at same joined found
      generalize s'.peek = t' at same
      cases same with
      | str => cases joined
      | same =>
        rw [found]
        refine (rest op s.pos s'.pos).advance_within passed (fun last => ?_) enough
        rw [← here, last] at joined
        cases joined

/-- By induction from the strongest operators to the weakest. -/
theorem binary_retells (tiers : List (Token → Option BinaryOp))
    (joins : ∀ tier ∈ tiers, ∀ t op, tier t = some op → t.joins) :
    RetellsExpr excused (Broken .fresh .closing) (Done tiers) (binary inner tiers)
      (binary inner' tiers) := by
  induction tiers with
  | nil => exact (unary_retells level).mono (fun _ _ => id) fun s s' h => ⟨h, List.forall_mem_nil _⟩
  | cons tier tiers ih =>
    obtain ⟨first, rest⟩ := List.forall_mem_cons.1 joins
    have operand := ih rest
    rw [binary, binary]
    exact operand.bind fun e e' lhs => .rounds (fun s s' h => h.1.length_le) fun b b' rounds =>
      chain_retells first operand rounds lhs

theorem expr_retells :
    RetellsExpr excused (Broken .fresh .closing) (Broken .fresh .closing) (binary inner tiers)
      (binary inner' tiers) := by
  have joins : ∀ tier ∈ tiers, ∀ t op, tier t = some op → t.joins := by
    simp only [tiers, List.forall_mem_cons]
    refine ⟨?_, ?_, ?_, ?_, ?_, ?_, List.forall_mem_nil _⟩ <;>
      exact fun t op found => by cases t <;> first | rfl | cases found
  refine (binary_retells level tiers joins).mono (fun _ _ => id) fun s s' h => ?_
  obtain ⟨ahead, ended⟩ := h
  refine ahead.fresh_of_value ?_
  generalize s.peek = t at ended
  cases t <;> first | rfl | (revert ended; decide)

omit level in
theorem params_retells {b b' : List Lexeme} (rounds : b.length ≤ b'.length) (seen : List String) :
    Retells excused (Broken .params .none) (Faces .params .rparen) (· = ·) (params b seen)
      (params b' seen) := by
  induction b generalizing b' seen with
  | nil => exact .fail
  | cons l b ih =>
    obtain ⟨l', b', rfl⟩ := List.exists_cons_of_length_pos (Nat.zero_lt_of_lt rounds)
    have ih := @ih b' (Nat.le_of_succ_le_succ rounds)
    rw [params, params]
    refine .peek fun t t' same => ?_
    simp only [← same.eq_iff (t := .rparen) (by simp)]
    split
    next ends =>
      subst ends
      exact .pure rfl
    · refine .pos fun p p' => ?_
      refine ((Retells.ident .params (fun _ => rfl) fun _ => rfl).of fun s s' h => h.1).bind
        fun name _ same => ?_
      cases same
      split
      · exact .failAt
      · have rest : Retells excused (Broken .params .none) (Faces .params .rparen) (· = ·)
            (do pure (name :: (← params b (name :: seen))))
            (do pure (name :: (← params b' (name :: seen)))) :=
          (ih _).bind fun names _ same => .pure (same ▸ rfl)
        refine (Retells.skipNewlines .params rfl).bind fun _ _ _ => .peek fun t t' same => ?_
        cases same with
        | str =>
          exact Retells.bind
            (.fail : Retells excused _ (Broken .params .none) (fun _ _ => True) _ _)
            fun _ _ _ => rest
        | same t =>
          split
          · exact .advance Faces.advance ((Retells.skipNewlines .params rfl).bind fun _ _ _ => rest)
          · exact rest.of fun s s' h => h.1
          · exact Retells.bind
              (.fail : Retells excused _ (Broken .params .none) (fun _ _ => True) _ _)
              fun _ _ _ => rest

theorem define_retells :
    RetellsStmt excused (Faces .fresh .defKw) (Broken .value .closing) (define inner)
      (define inner') := by
  have rest {p p' : Position} {name : String} (names : List String) :
      RetellsStmt excused (Broken .fresh .any) (Broken .value .closing)
        (do
          let body ← inner.body (.ofDef p)
          Parse.expect .endKw
          pure (Stmt.define name names body p))
        (do
          let body ← inner'.body (.ofDef p')
          Parse.expect .endKw
          pure (Stmt.define name names body p')) := by
    refine (level.body fun t => by cases t <;> rfl).bind fun ss ss' body => ?_
    refine (Retells.expect rfl (by simp) (by simp)).bind fun _ _ _ => .pure ?_
    rw [Stmt.bare, Stmt.bare, body]
  rw [define, define]
  refine .pos fun p p' => .advance Faces.advance ?_
  refine (Retells.ident .header (fun _ => rfl) fun _ => rfl).bind fun name _ same => ?_
  cases same
  refine .peek_closing (fun t t' same => ?_) fun t closes => ?_
  · cases same with
    | str =>
      exact (rest []).of fun s s' h => (h.1.fresh_of_header (h.2 ▸ by simp)).any
    | same t =>
      split
      · refine .advance Faces.advance ((Retells.skipNewlines .params rfl).bind fun _ _ _ => ?_)
        refine .rounds (fun _ _ => Reflowed.length_le) fun b b' rounds => ?_
        refine ((params_retells rounds []).of fun s s' h => h.1).bind fun names _ same => ?_
        refine .advance (fun s s' h => (Faces.advance s s' h).any) ?_
        cases same
        exact rest names
      next bare =>
        exact (rest []).of fun s s' h => (h.1.fresh_of_header (h.2 ▸ bare)).any
  · have bare : t ≠ .lparen := by
      rintro rfl
      cases closes
    have rest := (@rest p p' name []).of
      fun s s' (h : Broken .header .closing s s' ∧ s.peek = t) =>
        (h.1.fresh_of_header (h.2 ▸ bare)).any
    cases t <;> first | exact rest | cases closes

theorem cond_retells :
    RetellsStmt excused (Faces .fresh .ifKw) (Broken .value .closing) (cond inner)
      (cond inner') := by
  rw [cond, cond]
  refine .pos fun p p' => .advance Faces.advance (level.expr.bind fun test test' first => ?_)
  refine ((level.body fun t => by cases t <;> rfl).of fun s s' => Broken.any).bind
    fun yes yes' chosen => ?_
  have done {no no' : List Stmt} (other : Stmt.bareAll no = Stmt.bareAll no') :
      RetellsStmt excused (Broken .fresh .none) (Broken .value .closing)
        (do
          Parse.expect .endKw
          pure (Stmt.cond test yes no p))
        (do
          Parse.expect .endKw
          pure (Stmt.cond test' yes' no' p')) := by
    refine (Retells.expect rfl (by simp) (by simp)).bind fun _ _ _ => .pure ?_
    rw [Stmt.bare, Stmt.bare, first, chosen, other]
  refine .peek fun t t' same => ?_
  cases same with
  | str => exact (done rfl).of fun s s' h => h.1
  | same t =>
    split
    · refine .advance (fun s s' h => (Faces.advance s s' h).any) ?_
      exact (level.body fun t => by cases t <;> rfl).bind fun no no' other => done other
    · exact (done rfl).of fun s s' h => h.1

theorem stmt_retells :
    RetellsStmt excused (Broken .fresh .none) (Broken .value .closing) (stmt inner)
      (stmt inner') := by
  have expr : RetellsStmt excused (Broken .fresh .closing) (Broken .fresh .closing)
      (Stmt.expr <$> inner.expr) (Stmt.expr <$> inner'.expr) :=
    level.expr.map fun e e' value => congrArg Stmt.expr value
  have plain := expr.mono (fun _ _ => Broken.closing) fun _ _ => Broken.value
  have assign (name : String) (p p' : Position) :
      RetellsStmt excused (Broken .fresh .any) (Broken .value .closing)
        (do
          Parse.skipNewlines
          let value ← inner.expr
          pure (.assign name value p))
        (do
          Parse.skipNewlines
          let value ← inner'.expr
          pure (.assign name value p')) := by
    refine (Retells.skipNewlines .fresh rfl).bind fun _ _ _ => ?_
    refine (level.expr.mono (fun s s' => Broken.closing) fun s s' => Broken.value).bind
      fun e e' value => .pure ?_
    rw [Stmt.bare, Stmt.bare, value]
  intro s s' ahead
  rw [stmt, stmt, Parse.run_get_bind, Parse.run_get_bind]
  have first := ahead.peek
  have second := @ahead.second
  have passed := @ahead.advance_second
  generalize s.pos = p
  generalize s'.pos = p'
  generalize here : s.peek = t at first second passed
  generalize s'.peek = t' at first
  generalize s.second = u at second passed
  generalize s'.second = u' at second
  cases first with
  | str => exact plain s s' ahead
  | same t =>
    cases t with
    | defKw => exact define_retells level s s' ⟨ahead, here⟩
    | ifKw => exact cond_retells level s s' ⟨ahead, here⟩
    | ident name =>
      rcases second rfl with same | ⟨closes, rfl⟩
      · cases same with
        | str => exact plain s s' ahead
        | same u =>
          cases u with
          | assign => exact (assign name p p').advance_two (passed rfl rfl)
          | _ => exact plain s s' ahead
      · cases u <;> first | exact plain s s' ahead | cases closes
    | _ => exact plain s s' ahead

omit level in
theorem endOfStmt_retells :
    Retells excused (Broken .value .closing) (Broken .fresh .closing) (fun _ _ => True) endOfStmt
      endOfStmt := by
  intro s s' ahead
  have done (ends : s.peek.joins = false) : Retold excused
      (fun r r' : Unit × TokenStream => True ∧ Broken .fresh .closing r.2 r'.2 ∧
        r.2.rest.length ≤ s.rest.length) (.ok ((), s)) (.ok ((), s')) :=
    .ok ⟨trivial, ahead.fresh_of_value ends, Nat.le_refl _⟩
  rw [endOfStmt, Parse.run_peek_bind, Parse.run_peek_bind]
  rcases ahead.peek_cases with aligned | ⟨closes, newline, behind⟩
  · have same := aligned.peek
    have passed := aligned.advance
    generalize s.peek = t at same passed done
    generalize s'.peek = t' at same
    cases same with
    | str => exact .failed _ _
    | same t =>
      cases t with
      | newline => exact .ok ⟨trivial, passed, length_advance_le⟩
      | eof | endKw | rbrace | elseKw => exact done rfl
      | _ => exact .failed _ _
  · have ends := behind.fresh_of_value
    rw [newline]
    generalize s.peek = t at closes ends
    cases t <;> first
      | exact .ok ⟨trivial, ends rfl, Nat.le_refl _⟩
      | exact .failed _ _
      | cases closes

theorem stmts_retells {c c' : Closer} (accepts : ∀ t, c.accepts t = c'.accepts t)
    {b b' : List Lexeme} (rounds : b.length ≤ b'.length) :
    RetellsStmts excused (Broken .fresh .any) (Broken .fresh .none) (stmts inner c b)
      (stmts inner' c' b') := by
  induction b generalizing b' with
  | nil => exact .fail
  | cons l b ih =>
    obtain ⟨l', b', rfl⟩ := List.exists_cons_of_length_pos (Nat.zero_lt_of_lt rounds)
    have statement : RetellsStmts excused (Broken .fresh .none) (Broken .fresh .none)
        (do
          let first ← stmt inner
          endOfStmt
          let rest ← stmts inner c b
          pure (first :: rest))
        (do
          let first ← stmt inner'
          endOfStmt
          let rest ← stmts inner' c' b'
          pure (first :: rest)) := by
      refine (stmt_retells level).bind fun d d' first => endOfStmt_retells.bind fun _ _ _ => ?_
      refine ((ih (Nat.le_of_succ_le_succ rounds)).of fun s s' => Broken.any).bind
        fun ss ss' rest => .pure ?_
      rw [Stmt.bareAll, Stmt.bareAll, first, rest]
    rw [stmts, stmts]
    refine (Retells.skipNewlines .fresh rfl).bind fun _ _ _ => .peek fun t t' same => ?_
    cases same with
    | str =>
      have other (ss : List Segment) : c'.accepts (.str ss) = false := by cases c' <;> rfl
      simp only [accepts, other]
      exact statement.of fun s s' h => h.1
    | same t =>
      rw [accepts]
      split
      · exact .stay (fun _ _ h => h.1) rfl
      · split
        iterate 4 exact .fail
        · exact statement.of fun s s' h => h.1

theorem Level.Retells.around : (Level.around inner).Retells excused (.around inner') where
  expr := expr_retells level
  body accepts := .rounds (fun _ _ => Reflowed.length_le) fun _ _ rounds =>
    (stmts_retells level accepts rounds).of fun _ _ h => h.1
  unary := unary_retells level

end

theorem Level.Retells.last {excused : SyntaxError → Prop} {level : Level}
    (h : level = .last ∨ ∀ e : SyntaxError, e.fault = .tooDeep maxNesting → excused e) :
    level.Retells excused .last := by
  rcases h with rfl | deep
  · exact ⟨fun _ _ _ => .failed _ _, fun _ _ _ _ => .failed _ _, fun _ _ _ => .failed _ _⟩
  · exact ⟨fun _ _ _ => .tooDeep _ (deep _ rfl), fun _ _ _ _ => .tooDeep _ (deep _ rfl),
      fun _ _ _ => .tooDeep _ (deep _ rfl)⟩

/-- The same tokens are read in the same way, if there are as many levels or an excuse for fewer. By
induction on the levels of the second reading. -/
theorem Level.retells_ofNat {excused : SyntaxError → Prop} {n n' : Nat} (le : n' ≤ n)
    (h : n' = n ∨ ∀ e : SyntaxError, e.fault = .tooDeep maxNesting → excused e) :
    (Level.ofNat n).Retells excused (.ofNat n') := by
  induction n' generalizing n with
  | zero =>
    refine .last (h.imp_left ?_)
    rintro rfl
    rfl
  | succ n' ih =>
    obtain ⟨n, rfl⟩ : ∃ k, n = k + 1 := ⟨n - 1, by omega⟩
    exact (ih (Nat.le_of_succ_le_succ le) (h.imp_left Nat.succ.inj)).around

end Parser
end WidgetScript
