import Mathlib.Data.List.TakeWhile
import WidgetScript.Proofs.Outcome
import WidgetScript.Proofs.Parser.Grammar
import WidgetScript.Proofs.Parser.Operators

/-! What the parser accepts has a derivation in the grammar, from just the tokens that it passes.
One lemma for each parser says what a run that succeeds has read, and the levels are put together
from these by induction. -/
namespace WidgetScript

def Token.passable : Token → Bool
  | .eof => false
  | _ => true

def TokenStream.Passes (s : TokenStream) (ls : List Lexeme) (s' : TokenStream) : Prop :=
  s.rest = ls ++ s'.rest ∧ s.finish = s'.finish

namespace TokenStream
variable {s s' s'' : TokenStream} {ls ls' : List Lexeme} {t : Token}

theorem Passes.nil : s.Passes [] s := ⟨rfl, rfl⟩

theorem Passes.trans (h : s.Passes ls s') (h' : s'.Passes ls' s'') : s.Passes (ls ++ ls') s'' :=
  ⟨by rw [h.1, h'.1, List.append_assoc], h.2.trans h'.2⟩

theorem Passes.cons {l : Lexeme} (h : s.Passes [l] s') (h' : s'.Passes ls s'') :
    s.Passes (l :: ls) s'' := h.trans h'

theorem passes_advance (h : s.peek = t) (passable : t.passable) :
    s.Passes [⟨t, s.pos⟩] s.advance := by
  obtain ⟨_ | ⟨l, rest⟩, finish⟩ := s
  · cases h
    cases passable
  · cases h
    exact ⟨rfl, rfl⟩

theorem passes_skipNewlines (s : TokenStream) :
    ∃ nl, Parser.Blank nl ∧ s.Passes nl s.skipNewlines := by
  refine ⟨s.rest.takeWhile (·.token = .newline), fun l hl => ?_, ?_, rfl⟩
  · simpa using List.mem_takeWhile_imp hl
  · exact List.takeWhile_append_dropWhile.symm

end TokenStream

namespace Parse
variable {α β : Type} {s s' : TokenStream} {a : α} {b : β} {t : Token}

theorem bind_ok {p : Parse α} {f : α → Parse β} :
    (p >>= f) s = .ok (b, s') ↔ ∃ a t, p s = .ok (a, t) ∧ f a t = .ok (b, s') := by
  change (p s >>= fun r => f r.1 r.2) = _ ↔ _
  rw [bind_eq_ok, Prod.exists]

theorem pure_ok {a' : α} : (pure a : Parse α) s = .ok (a', s') ↔ a' = a ∧ s' = s := by
  change (Except.ok (a, s) : Except SyntaxError (α × TokenStream)) = _ ↔ _
  simp only [Except.ok.injEq, Prod.mk.injEq, eq_comm]

theorem map_ok {p : Parse α} {f : α → β} (h : (f <$> p) s = .ok (b, s')) :
    ∃ a, p s = .ok (a, s') ∧ b = f a := by
  change (p >>= fun a => pure (f a)) s = _ at h
  obtain ⟨a, t, run, h⟩ := bind_ok.1 h
  cases h
  exact ⟨a, run, rfl⟩

theorem not_fail {fault : SyntaxFault} : (fail fault : Parse α) s ≠ .ok (a, s') := nofun

theorem not_failAt {fault : SyntaxFault} {pos : Position} :
    (failAt fault pos t : Parse α) s ≠ .ok (a, s') := nofun

theorem expect_ok {u : Unit} (h : expect t s = .ok (u, s')) (passable : t.passable) :
    s.Passes [⟨t, s.pos⟩] s' := by
  rw [expect, run_peek_bind] at h
  split at h
  next ahead =>
    cases h
    exact TokenStream.passes_advance ahead passable
  next => exact absurd h not_fail

theorem ident_ok {name : String} (h : ident s = .ok (name, s')) :
    s.Passes [⟨.ident name, s.pos⟩] s' := by
  rw [ident, run_peek_bind] at h
  generalize ahead : s.peek = token at h
  split at h
  next =>
    cases h
    exact TokenStream.passes_advance ahead rfl
  next => exact absurd h not_fail

theorem separator_ok {close : Token} {fault : SyntaxFault} {u : Unit}
    (h : separator close fault s = .ok (u, s')) :
    s.Passes [⟨.comma, s.pos⟩] s' ∨ s' = s ∧ s.peek = close := by
  rw [separator, run_peek_bind] at h
  generalize ahead : s.peek = token at h
  split at h
  next =>
    cases h
    exact .inl (TokenStream.passes_advance ahead rfl)
  next =>
    split at h
    next closes =>
      cases h
      exact .inr ⟨rfl, closes⟩
    next => exact absurd h not_fail

end Parse

namespace Parser
open TokenStream Parse
variable {inner : Level} {n : Nat} {s s' : TokenStream}

structure Level.Sound (level : Level) (n : Nat) : Prop where
  expr : ∀ {s s' e}, level.expr s = .ok (e, s') →
    ∃ ls, s.Passes ls s' ∧ Derives n (.whole e) ls
  body : ∀ {s s' closer ss}, level.body closer s = .ok (ss, s') →
    ∃ ls, s.Passes ls s' ∧ Derives n (.body ss) ls ∧ closer.accepts s'.peek
  unary : ∀ {s s' e}, level.unary s = .ok (e, s') →
    ∃ m ls, n = m + 1 ∧ s.Passes ls s' ∧ Derives m (.operand 7 e) ls

theorem items_closed {budget : List Lexeme} {es : List Expr} (closes : s.peek = .rbracket)
    (h : items inner budget s = .ok (es, s')) : es = [] ∧ s' = s := by
  cases budget with
  | nil => exact absurd h not_fail
  | cons b budget =>
    have here : s.skipNewlines = s := skipNewlines_of_ne (by rw [closes]; nofun)
    rw [items, run_skipNewlines_bind, run_peek_bind, here, if_pos closes] at h
    exact pure_ok.1 h

theorem entries_closed {budget : List Lexeme} {seen : List String} {es : List Entry}
    (closes : s.peek = .rbrace) (h : entries inner budget seen s = .ok (es, s')) :
    es = [] ∧ s' = s := by
  cases budget with
  | nil => exact absurd h not_fail
  | cons b budget =>
    have here : s.skipNewlines = s := skipNewlines_of_ne (by rw [closes]; nofun)
    rw [entries, run_skipNewlines_bind, run_peek_bind, here, if_pos closes] at h
    exact pure_ok.1 h

theorem arguments_closed {name : String} {budget : List Lexeme} {seen : List String}
    {as : List Argument} (closes : s.peek = .rparen)
    (h : arguments inner name budget seen s = .ok (as, s')) : as = [] ∧ s' = s := by
  cases budget with
  | nil => exact absurd h not_fail
  | cons b budget =>
    have here : s.skipNewlines = s := skipNewlines_of_ne (by rw [closes]; nofun)
    rw [arguments, run_skipNewlines_bind, run_get_bind, here, closes] at h
    exact pure_ok.1 h

section
variable (sound : inner.Sound n)
include sound

theorem padded_ok {e : Expr} {s₁ : TokenStream}
    (run : inner.expr s.skipNewlines = .ok (e, s₁)) :
    ∃ ls, s.Passes ls s₁.skipNewlines ∧ Derives n (.padded e) ls := by
  obtain ⟨nl, blank, before⟩ := s.passes_skipNewlines
  obtain ⟨ls, passed, derived⟩ := sound.expr run
  obtain ⟨nl', blank', behind⟩ := s₁.passes_skipNewlines
  exact ⟨_, before.trans (passed.trans behind), .padded blank derived blank'⟩

theorem hole_ok {source : String} {pos : Position} {e : Expr}
    (h : hole inner source pos = .ok e) :
    ∃ ls rest, Lexer.tokenizeAt source pos = .ok (ls ++ rest) ∧
      Derives n (.padded e) ls ∧ ∀ l ∈ rest.head?, l.token = .eof := by
  unfold hole at h
  obtain ⟨tokens, lexed, h⟩ := bind_eq_ok.1 h
  dsimp only at h
  split at h
  · cases h
  · obtain ⟨⟨value, s₁⟩, run, h⟩ := bind_eq_ok.1 h
    dsimp only at h
    split at h
    next finish =>
      cases h
      obtain ⟨ls, ⟨rest, -⟩, derived⟩ := padded_ok sound run
      refine ⟨ls, s₁.skipNewlines.rest, ?_, derived, fun l hl => ?_⟩
      · rw [lexed, ← rest]
        rfl
      · rw [TokenStream.peek, Option.mem_def.1 hl] at finish
        exact finish
    next => cases h

theorem parts_ok {segments : List Segment} {ps : List Part} (h : parts inner segments = .ok ps) :
    Derives n (.parts segments ps) [] := by
  induction segments generalizing ps with
  | nil =>
    cases h
    exact .noParts
  | cons segment segments ih =>
    cases segment with
    | text t =>
      obtain ⟨rest, run, h⟩ := bind_eq_ok.1 h
      cases h
      exact .textPart (ih run)
    | placeholder source pos =>
      obtain ⟨value, first, h⟩ := bind_eq_ok.1 h
      obtain ⟨rest, run, h⟩ := bind_eq_ok.1 h
      cases h
      obtain ⟨ls, tail, lexed, derived, finish⟩ := hole_ok sound first
      exact .holePart lexed derived finish (ih run)

theorem string_ok {segments : List Segment} {p : Position} {e : Expr}
    (h : string inner segments p s = .ok (e, s')) :
    s' = s ∧ Derives n (.operand 8 e) [⟨.str segments, p⟩] := by
  unfold string at h
  split at h
  next text plain =>
    cases h
    exact ⟨rfl, .text plain⟩
  next =>
    obtain ⟨ps, run, h⟩ := bind_eq_ok.1 h
    cases h
    exact ⟨rfl, .interpolated (parts_ok sound run)⟩

theorem separated_ok {close : Token} {fault : SyntaxFault} {e : Expr} {u : Unit}
    {s₁ s₂ : TokenStream} (run : inner.expr s.skipNewlines = .ok (e, s₁))
    (next : separator close fault s₁.skipNewlines = .ok (u, s₂)) :
    ∃ ls, s.Passes ls s₁.skipNewlines ∧ Derives n (.padded e) ls ∧
      (s₁.skipNewlines.Passes [⟨.comma, s₁.skipNewlines.pos⟩] s₂ ∨
        s₂ = s₁.skipNewlines ∧ s₂.peek = close) := by
  obtain ⟨ls, passed, derived⟩ := padded_ok sound run
  refine ⟨ls, passed, derived, ?_⟩
  rcases separator_ok next with comma | ⟨rfl, closes⟩
  · exact .inl comma
  · exact .inr ⟨rfl, closes⟩

omit sound in
theorem fresh_positional (e : Expr) (seen : List String) :
    ∀ key ∈ (Argument.positional e).keys, key ∉ seen := nofun

theorem items_ok {budget : List Lexeme} {es : List Expr}
    (h : items inner budget s = .ok (es, s')) :
    ∃ ls, s.Passes ls s' ∧ Derives n (.row .list [] (es.map .positional)) ls ∧
      s'.peek = .rbracket := by
  induction budget generalizing s es with
  | nil => exact absurd h not_fail
  | cons b budget ih =>
    rw [items, run_skipNewlines_bind, run_peek_bind] at h
    split at h
    next closes =>
      cases h
      obtain ⟨nl, blank, passed⟩ := s.passes_skipNewlines
      exact ⟨nl, passed, .noElements blank, closes⟩
    next =>
      obtain ⟨e, s₁, run, h⟩ := bind_ok.1 h
      rw [run_skipNewlines_bind] at h
      obtain ⟨_, s₂, next, h⟩ := bind_ok.1 h
      obtain ⟨rest, s₃, more, h⟩ := bind_ok.1 h
      cases h
      obtain ⟨ls, passed, derived, comma | ⟨rfl, closes⟩⟩ := separated_ok sound run next
      · obtain ⟨rs, passed', derived', closes⟩ := ih more
        exact ⟨_, passed.trans (comma.cons passed'),
          .elements (fresh_positional e []) (.positional (by decide) derived) derived', closes⟩
      · -- Without a comma the bracket is ahead, so the loop reads nothing more.
        obtain ⟨rfl, rfl⟩ := items_closed closes more
        exact ⟨ls, passed, .lastElement (fresh_positional e []) (.positional (by decide) derived),
          closes⟩

omit sound in
theorem mapKey_ok {key : String} (h : mapKey s = .ok (key, s')) :
    ∃ t, Enclosure.map.Key t key ∧ s.Passes [⟨t, s.pos⟩] s' := by
  rw [mapKey, run_pos_bind, run_peek_bind, run_advance_bind] at h
  generalize ahead : s.peek = t at h
  split at h
  next =>
    cases h
    exact ⟨_, .inl rfl, passes_advance ahead rfl⟩
  next =>
    cases h
    exact ⟨_, .inr ⟨rfl, rfl⟩, passes_advance ahead rfl⟩
  next => exact absurd h not_failAt
  next => exact absurd h not_failAt

theorem entries_ok {budget : List Lexeme} {seen : List String} {es : List Entry}
    (h : entries inner budget seen s = .ok (es, s')) :
    ∃ ls, s.Passes ls s' ∧ Derives n (.row .map seen (es.map .keyword)) ls ∧
      s'.peek = .rbrace := by
  induction budget generalizing s seen es with
  | nil => exact absurd h not_fail
  | cons b budget ih =>
    obtain ⟨nl, blank, before⟩ := s.passes_skipNewlines
    rw [entries, run_skipNewlines_bind, run_peek_bind] at h
    split at h
    next closes =>
      cases h
      exact ⟨nl, before, .noElements blank, closes⟩
    next =>
      rw [run_pos_bind] at h
      obtain ⟨key, s₁, keyed, h⟩ := bind_ok.1 h
      split at h
      · exact absurd h not_failAt
      next fresh =>
        obtain ⟨_, s₂, colon, h⟩ := bind_ok.1 h
        rw [run_skipNewlines_bind] at h
        obtain ⟨e, s₃, run, h⟩ := bind_ok.1 h
        rw [run_skipNewlines_bind] at h
        obtain ⟨_, s₄, next, h⟩ := bind_ok.1 h
        obtain ⟨rest, s₅, more, h⟩ := bind_ok.1 h
        cases h
        obtain ⟨t, isKey, passedKey⟩ := mapKey_ok keyed
        obtain ⟨ls, passed, derived, behind⟩ := separated_ok sound run next
        have passed := before.trans (passedKey.cons ((expect_ok colon rfl).cons passed))
        have element : Derives n (.element .map (.keyword (.mk key e s.skipNewlines.pos)))
            (nl ++ ⟨t, s.skipNewlines.pos⟩ :: ⟨.colon, s₁.pos⟩ :: ls) :=
          .keyword (by decide) blank isKey derived
        have fresh : ∀ k ∈ (Argument.keyword (.mk key e s.skipNewlines.pos)).keys,
            k ∉ seen := by
          simpa [Entry.key] using fresh
        rcases behind with comma | ⟨rfl, closes⟩
        · obtain ⟨rs, passed', derived', closes⟩ := ih more
          exact ⟨_, passed.trans (comma.cons passed'), .elements fresh element derived', closes⟩
        · obtain ⟨rfl, rfl⟩ := entries_closed closes more
          exact ⟨_, passed, .lastElement fresh element, closes⟩

theorem arguments_ok {name : String} {budget : List Lexeme} {seen : List String}
    {as : List Argument} (h : arguments inner name budget seen s = .ok (as, s')) :
    ∃ ls, s.Passes ls s' ∧ Derives n (.row .call seen as) ls ∧ s'.peek = .rparen := by
  induction budget generalizing s seen as with
  | nil => exact absurd h not_fail
  | cons b budget ih =>
    obtain ⟨nl, blank, before⟩ := s.passes_skipNewlines
    rw [arguments, run_skipNewlines_bind, run_get_bind] at h
    generalize ahead : s.skipNewlines.peek = t at h
    generalize ahead' : s.skipNewlines.second = t' at h
    split at h
    next =>
      cases h
      exact ⟨nl, before, .noElements blank, ahead⟩
    next key =>
      split at h
      · exact absurd h not_failAt
      next fresh =>
        rw [run_advance_bind, run_advance_bind, run_skipNewlines_bind] at h
        obtain ⟨e, s₁, run, h⟩ := bind_ok.1 h
        rw [run_skipNewlines_bind] at h
        obtain ⟨_, s₂, next, h⟩ := bind_ok.1 h
        obtain ⟨rest, s₃, more, h⟩ := bind_ok.1 h
        cases h
        obtain ⟨ls, passed, derived, behind⟩ := separated_ok sound run next
        have passedKey := passes_advance ahead rfl
        have passedColon := passes_advance (second_eq_peek_advance.symm.trans ahead') rfl
        have passed := before.trans (passedKey.cons (passedColon.cons passed))
        have element : Derives n (.element .call (.keyword (.mk key e s.skipNewlines.pos)))
            (nl ++ ⟨.ident key, s.skipNewlines.pos⟩ ::
              ⟨.colon, s.skipNewlines.advance.pos⟩ :: ls) :=
          .keyword (by decide) blank (.inl rfl) derived
        have fresh : ∀ k ∈ (Argument.keyword (.mk key e s.skipNewlines.pos)).keys,
            k ∉ seen := by
          simpa [Entry.key] using fresh
        rcases behind with comma | ⟨rfl, closes⟩
        · obtain ⟨rs, passed', derived', closes⟩ := ih more
          exact ⟨_, passed.trans (comma.cons passed'), .elements fresh element derived', closes⟩
        · obtain ⟨rfl, rfl⟩ := arguments_closed closes more
          exact ⟨_, passed, .lastElement fresh element, closes⟩
    next =>
      obtain ⟨e, s₁, run, h⟩ := bind_ok.1 h
      rw [run_skipNewlines_bind] at h
      obtain ⟨_, s₂, next, h⟩ := bind_ok.1 h
      obtain ⟨rest, s₃, more, h⟩ := bind_ok.1 h
      cases h
      obtain ⟨ls, passed, derived, comma | ⟨rfl, closes⟩⟩ := separated_ok sound run next
      · obtain ⟨rs, passed', derived', closes⟩ := ih more
        exact ⟨_, passed.trans (comma.cons passed'),
          .elements (fresh_positional e seen) (.positional (by decide) derived) derived', closes⟩
      · obtain ⟨rfl, rfl⟩ := arguments_closed closes more
        exact ⟨ls, passed,
          .lastElement (fresh_positional e seen) (.positional (by decide) derived), closes⟩

theorem enclosed_ok {d : Delimiter} {closer : Closer} {b : Block} (ahead : s.peek = d.opener)
    (h : (do
      advance
      let ss ← inner.body closer
      expect d.closer
      pure (Block.mk d ss s.pos)) s = .ok (b, s')) :
    ∃ ss p ls, b = .mk d ss p ∧ s.Passes ls s' ∧ Derives n (.block (some b)) ls := by
  rw [run_advance_bind] at h
  obtain ⟨ss, s₁, run, h⟩ := bind_ok.1 h
  obtain ⟨_, s₂, closes, h⟩ := bind_ok.1 h
  cases h
  obtain ⟨ls, passed, derived, -⟩ := sound.body run
  have opened := passes_advance ahead (by cases d <;> rfl)
  have closed := expect_ok closes (by cases d <;> rfl)
  exact ⟨ss, s.pos, _, rfl, opened.cons (passed.trans closed), .block derived⟩

theorem block_ok {b : Block} (opens : s.peek = .doKw ∨ s.peek = .lbrace)
    (h : block inner s = .ok (b, s')) :
    ∃ ls, s.Passes ls s' ∧ Derives n (.block (some b)) ls ∧
      (s.peek = .doKw → ∃ ss p, b = .mk .doEnd ss p) := by
  rw [block, run_pos_bind, run_peek_bind] at h
  rcases opens with ahead | ahead
  · rw [ahead] at h
    obtain ⟨ss, p, ls, rfl, passed, derived⟩ := enclosed_ok sound (d := .doEnd) ahead h
    exact ⟨ls, passed, derived, fun _ => ⟨ss, p, rfl⟩⟩
  · rw [ahead] at h
    obtain ⟨ss, p, ls, rfl, passed, derived⟩ := enclosed_ok sound (d := .braces) ahead h
    exact ⟨ls, passed, derived, fun other => nomatch ahead.symm.trans other⟩

theorem call_ok {name : String} {p : Position} {e : Expr} (ahead : s.peek = .lparen)
    (h : call inner name p s = .ok (e, s')) :
    ∃ ls, s.Passes ls s' ∧ Derives n (.operand 8 e) (⟨.ident name, p⟩ :: ls) := by
  rw [call, run_advance_bind, run_rounds_bind] at h
  obtain ⟨as, s₁, run, h⟩ := bind_ok.1 h
  rw [run_advance_bind, run_peek_bind] at h
  obtain ⟨ls, passed, derived, closes⟩ := arguments_ok sound run
  have followed {b : Option Block} {bs : List Lexeme} (behind : s₁.advance.Passes bs s')
      (block : Derives n (.block b) bs) :
      ∃ ls, s.Passes ls s' ∧ Derives n (.operand 8 (.call name (as.filterMap (·.positional?))
        (as.filterMap (·.keyword?)) b p)) (⟨.ident name, p⟩ :: ls) :=
    ⟨_, (passes_advance ahead rfl).cons
      (passed.trans ((passes_advance closes rfl).cons behind)), .call derived block⟩
  generalize next : s₁.advance.peek = t at h
  split at h
  next =>
    obtain ⟨_, s₂, blk, h⟩ := bind_ok.1 h
    obtain ⟨b, run, rfl⟩ := map_ok blk
    cases h
    obtain ⟨bs, behind, block, -⟩ := block_ok sound (.inl next) run
    exact followed behind block
  next =>
    obtain ⟨_, s₂, blk, h⟩ := bind_ok.1 h
    obtain ⟨b, run, rfl⟩ := map_ok blk
    cases h
    obtain ⟨bs, behind, block, -⟩ := block_ok sound (.inr next) run
    exact followed behind block
  next =>
    cases h
    exact followed .nil .noBlock

theorem primary_ok {e : Expr} (h : primary inner s = .ok (e, s')) :
    ∃ ls, s.Passes ls s' ∧ Derives n (.operand 8 e) ls := by
  rw [primary, run_pos_bind, run_peek_bind, run_advance_bind] at h
  generalize ahead : s.peek = t at h
  have first (passable : t.passable) := passes_advance ahead passable
  split at h
  next x =>
    cases h
    exact ⟨_, first rfl, @Derives.literal n (.number x) _⟩
  next =>
    cases h
    exact ⟨_, first rfl, @Derives.literal n (.bool true) _⟩
  next =>
    cases h
    exact ⟨_, first rfl, @Derives.literal n (.bool false) _⟩
  next =>
    cases h
    exact ⟨_, first rfl, @Derives.literal n .nil _⟩
  next =>
    cases h
    exact ⟨_, first rfl, .symbol⟩
  next =>
    obtain ⟨rfl, derived⟩ := string_ok sound h
    exact ⟨_, first rfl, derived⟩
  next name =>
    rw [run_peek_bind] at h
    generalize next : s.advance.peek = t at h
    split at h
    next =>
      obtain ⟨ls, passed, derived⟩ := call_ok sound next h
      exact ⟨_, (first rfl).cons passed, derived⟩
    next =>
      obtain ⟨b, s₁, run, h⟩ := bind_ok.1 h
      cases h
      obtain ⟨bs, passed, derived, doEnd⟩ := block_ok sound (.inl next) run
      obtain ⟨ss, q, rfl⟩ := doEnd next
      exact ⟨_, (first rfl).cons passed, .doCall derived⟩
    next =>
      cases h
      exact ⟨_, first rfl, .ident⟩
  next =>
    rw [list, run_rounds_bind] at h
    obtain ⟨es, s₁, run, h⟩ := bind_ok.1 h
    cases h
    obtain ⟨ls, passed, derived, closes⟩ := items_ok sound run
    exact ⟨_, (first rfl).cons (passed.trans (passes_advance closes rfl)), .list derived⟩
  next =>
    rw [map, run_rounds_bind] at h
    obtain ⟨es, s₁, run, h⟩ := bind_ok.1 h
    cases h
    obtain ⟨ls, passed, derived, closes⟩ := entries_ok sound run
    exact ⟨_, (first rfl).cons (passed.trans (passes_advance closes rfl)), .map derived⟩
  next =>
    rw [run_skipNewlines_bind] at h
    obtain ⟨value, s₁, run, h⟩ := bind_ok.1 h
    rw [run_skipNewlines_bind] at h
    obtain ⟨_, s₂, closes, h⟩ := bind_ok.1 h
    cases h
    obtain ⟨ls, passed, derived⟩ := padded_ok sound run
    exact ⟨_, (first rfl).cons (passed.trans (expect_ok closes rfl)), .parens derived⟩
  next => exact absurd h not_failAt

theorem accesses_ok {budget : List Lexeme} {target e : Expr} {ts : List Lexeme}
    (before : Derives n (.operand 8 target) ts)
    (h : accesses inner budget target s = .ok (e, s')) :
    ∃ ls, s.Passes ls s' ∧ Derives n (.operand 8 e) (ts ++ ls) := by
  induction budget generalizing s target ts with
  | nil =>
    cases h
    exact ⟨[], .nil, by rwa [List.append_nil]⟩
  | cons b budget ih =>
    rw [accesses, run_pos_bind, run_peek_bind] at h
    generalize ahead : s.peek = t at h
    split at h
    next =>
      rw [run_advance_bind, run_skipNewlines_bind] at h
      obtain ⟨key, s₁, run, h⟩ := bind_ok.1 h
      rw [run_skipNewlines_bind] at h
      obtain ⟨_, s₂, closes, h⟩ := bind_ok.1 h
      obtain ⟨ls, passed, derived⟩ := padded_ok sound run
      -- What has been read so far is the target of the accesses behind it.
      obtain ⟨rs, passed', derived'⟩ := ih (.index before derived) h
      rw [List.append_assoc] at derived'
      exact ⟨_, ((passes_advance ahead rfl).cons
        (passed.trans (expect_ok closes rfl))).trans passed', derived'⟩
    next =>
      rw [run_advance_bind] at h
      obtain ⟨name, s₁, named, h⟩ := bind_ok.1 h
      obtain ⟨rs, passed', derived'⟩ := ih (.field before) h
      rw [List.append_assoc] at derived'
      exact ⟨_, ((passes_advance ahead rfl).cons (ident_ok named)).trans passed', derived'⟩
    next =>
      cases h
      exact ⟨[], .nil, by rwa [List.append_nil]⟩

omit sound in
theorem passable_of_prefixOp? {t : Token} {op : UnaryOp} (h : prefixOp? t = some op) :
    t.passable := by
  cases t with
  | eof => exact nomatch h
  | _ => rfl

theorem unary_ok {e : Expr} (h : unary inner s = .ok (e, s')) :
    ∃ ls, s.Passes ls s' ∧ Derives n (.operand 7 e) ls := by
  rw [unary, run_pos_bind, run_peek_bind] at h
  generalize found : prefixOp? s.peek = op? at h
  split at h
  next op =>
    rw [run_advance_bind] at h
    obtain ⟨operand, s₁, run, h⟩ := bind_ok.1 h
    cases h
    obtain ⟨m, ls, rfl, passed, derived⟩ := sound.unary run
    have first := passes_advance rfl (passable_of_prefixOp? found)
    exact ⟨_, first.cons passed, .unary found derived⟩
  next =>
    rw [postfixed] at h
    obtain ⟨target, s₁, run, h⟩ := bind_ok.1 h
    rw [run_rounds_bind] at h
    obtain ⟨ts, passed, derived⟩ := primary_ok sound run
    obtain ⟨ls, passed', derived'⟩ := accesses_ok sound derived h
    exact ⟨_, passed.trans passed', .weaken derived'⟩

omit sound in
theorem tier_eq_some {i : Nat} {t : Token} {op : BinaryOp} (h : tier i t = some op) :
    op.prec = i + 1 ∧ t = op.token := by
  rcases i with _ | _ | _ | _ | _ | _ | i
  all_goals cases t <;> first | cases h; exact ⟨rfl, rfl⟩ | exact nomatch h

omit sound in
theorem chain_ok {i : Nat} {operand : Parse Expr} {budget : List Lexeme} {lhs e : Expr}
    {ts : List Lexeme}
    (reads : ∀ {s s' e}, operand s = .ok (e, s') →
      ∃ ls, s.Passes ls s' ∧ Derives n (.operand (i + 2) e) ls)
    (before : Derives n (.operand (i + 1) lhs) ts)
    (h : chain (tier i) operand budget lhs s = .ok (e, s')) :
    ∃ ls, s.Passes ls s' ∧ Derives n (.operand (i + 1) e) (ts ++ ls) := by
  induction budget generalizing s lhs ts with
  | nil =>
    cases h
    exact ⟨[], .nil, by rwa [List.append_nil]⟩
  | cons b budget ih =>
    rw [chain, run_peek_bind] at h
    generalize found : tier i s.peek = op? at h
    split at h
    next op =>
      rw [run_pos_bind, run_advance_bind, run_skipNewlines_bind] at h
      obtain ⟨rhs, s₁, run, h⟩ := bind_ok.1 h
      obtain ⟨prec, ahead⟩ := tier_eq_some found
      obtain ⟨nl, blank, skipped⟩ := s.advance.passes_skipNewlines
      obtain ⟨rs, passed, derived⟩ := reads run
      have joined : Derives n (.operand (i + 1) (.binary op lhs rhs s.pos))
          (ts ++ ⟨op.token, s.pos⟩ :: (nl ++ rs)) := by
        rw [← prec] at before ⊢
        exact .binary before blank (by rwa [prec])
      obtain ⟨ls, passed', derived'⟩ := ih joined h
      rw [List.append_assoc] at derived'
      have passable : op.token.passable := by cases op <;> rfl
      have passed := (passes_advance ahead passable).cons (skipped.trans passed)
      exact ⟨_, passed.trans passed', derived'⟩
    next =>
      cases h
      exact ⟨[], .nil, by rwa [List.append_nil]⟩

/-- By induction from the strongest operators to the weakest. -/
theorem binary_ok {i : Nat} (hi : i ≤ 6) {e : Expr}
    (h : binary inner (tiers.drop i) s = .ok (e, s')) :
    ∃ ls, s.Passes ls s' ∧ Derives n (.operand (i + 1) e) ls := by
  induction hi using Nat.decreasingInduction generalizing s s' e with
  | self => exact unary_ok sound h
  | of_succ i hi ih =>
    rw [drop_tiers hi, binary] at h
    obtain ⟨lhs, s₁, run, h⟩ := bind_ok.1 h
    rw [run_rounds_bind] at h
    obtain ⟨ls, passed, derived⟩ := ih run
    obtain ⟨rs, passed', derived'⟩ := chain_ok ih (.weaken derived) h
    exact ⟨_, passed.trans passed', derived'⟩

end

theorem params_closed {budget : List Lexeme} {seen names : List String} (closes : s.peek = .rparen)
    (h : params budget seen s = .ok (names, s')) : names = [] ∧ s' = s := by
  cases budget with
  | nil => exact absurd h not_fail
  | cons b budget =>
    rw [params, run_peek_bind, if_pos closes] at h
    exact pure_ok.1 h

theorem params_ok {budget : List Lexeme} {seen names : List String}
    (h : params budget seen s = .ok (names, s')) :
    ∃ ls, s.Passes ls s' ∧ Names seen names ls ∧ s'.peek = .rparen := by
  induction budget generalizing s seen names with
  | nil => exact absurd h not_fail
  | cons b budget ih =>
    rw [params, run_peek_bind] at h
    split at h
    next closes =>
      cases h
      exact ⟨[], .nil, .nil, closes⟩
    next =>
      rw [run_pos_bind] at h
      obtain ⟨name, s₁, named, h⟩ := bind_ok.1 h
      split at h
      · exact absurd h not_failAt
      next fresh =>
        rw [run_skipNewlines_bind, run_peek_bind] at h
        obtain ⟨nl, blank, behind⟩ := s₁.passes_skipNewlines
        have passed := (ident_ok named).cons behind
        generalize ahead : s₁.skipNewlines.peek = t at h
        split at h
        next =>
          rw [run_advance_bind, run_skipNewlines_bind] at h
          obtain ⟨rest, s₂, more, h⟩ := bind_ok.1 h
          cases h
          obtain ⟨nl', blank', skipped⟩ := s₁.skipNewlines.advance.passes_skipNewlines
          obtain ⟨ls, passed', derived, closes⟩ := ih more
          have comma := passes_advance ahead rfl
          exact ⟨_, passed.trans (comma.cons (skipped.trans passed')),
            .cons fresh blank blank' derived, closes⟩
        next =>
          obtain ⟨rest, s₂, more, h⟩ := bind_ok.1 h
          cases h
          obtain ⟨rfl, rfl⟩ := params_closed ahead more
          exact ⟨_, passed, .last fresh blank, ahead⟩
        next =>
          obtain ⟨_, _, failed, -⟩ := bind_ok.1 h
          exact absurd failed not_fail

section
variable (sound : inner.Sound n)
include sound

theorem define_ok {d : Stmt} (ahead : s.peek = .defKw) (h : define inner s = .ok (d, s')) :
    ∃ ls, s.Passes ls s' ∧ Derives n (.stmt d) ls := by
  rw [define, run_pos_bind, run_advance_bind] at h
  obtain ⟨name, s₁, named, h⟩ := bind_ok.1 h
  rw [run_peek_bind] at h
  have defined {names : List String} {ns : List Lexeme} {s₂ : TokenStream}
      (passed : s₁.Passes ns s₂) (listed : Params names ns)
      (h : (do
        let ss ← inner.body (.ofDef s.pos)
        expect .endKw
        pure (Stmt.define name names ss s.pos)) s₂ = .ok (d, s')) :
      ∃ ls, s.Passes ls s' ∧ Derives n (.stmt d) ls := by
    obtain ⟨ss, s₃, run, h⟩ := bind_ok.1 h
    obtain ⟨_, s₄, closes, h⟩ := bind_ok.1 h
    cases h
    obtain ⟨ls, passed', derived, -⟩ := sound.body run
    have header := (passes_advance ahead rfl).cons (ident_ok named)
    exact ⟨_, header.trans (passed.trans (passed'.trans (expect_ok closes rfl))),
      .define listed derived⟩
  generalize next : s₁.peek = t at h
  split at h
  next =>
    rw [run_advance_bind, run_skipNewlines_bind, run_rounds_bind] at h
    obtain ⟨names, s₂, run, h⟩ := bind_ok.1 h
    obtain ⟨nl, blank, skipped⟩ := s₁.advance.passes_skipNewlines
    obtain ⟨ls, passed, listed, closes⟩ := params_ok run
    have opened := passes_advance next rfl
    have closed := passes_advance closes rfl
    exact defined (opened.cons (skipped.trans (passed.trans closed))) (.some blank listed) h
  next => exact defined .nil .none h

theorem cond_ok {c : Stmt} (ahead : s.peek = .ifKw) (h : cond inner s = .ok (c, s')) :
    ∃ ls, s.Passes ls s' ∧ Derives n (.stmt c) ls := by
  rw [cond, run_pos_bind, run_advance_bind] at h
  obtain ⟨test, s₁, tested, h⟩ := bind_ok.1 h
  obtain ⟨yes, s₂, chosen, h⟩ := bind_ok.1 h
  rw [run_peek_bind] at h
  obtain ⟨ts, passed, derivedTest⟩ := sound.expr tested
  obtain ⟨ys, passed', derivedYes, -⟩ := sound.body chosen
  have passed := (passes_advance ahead rfl).cons (passed.trans passed')
  generalize next : s₂.peek = t at h
  split at h
  next =>
    rw [run_advance_bind] at h
    obtain ⟨no, s₃, run, h⟩ := bind_ok.1 h
    obtain ⟨_, s₄, closes, h⟩ := bind_ok.1 h
    cases h
    obtain ⟨ns, passed', derivedNo, -⟩ := sound.body run
    have behind := (passes_advance next rfl).cons (passed'.trans (expect_ok closes rfl))
    have all := passed.trans behind
    rw [List.cons_append, List.append_assoc] at all
    exact ⟨_, all, .condElse derivedTest derivedYes derivedNo⟩
  next =>
    change (do expect .endKw; pure (Stmt.cond test yes [] s.pos) : Parse Stmt) s₂ = _ at h
    obtain ⟨_, s₄, closes, h⟩ := bind_ok.1 h
    cases h
    have all := passed.trans (expect_ok closes rfl)
    rw [List.cons_append, List.append_assoc] at all
    exact ⟨_, all, .cond derivedTest derivedYes⟩

theorem stmt_ok {d : Stmt} (h : stmt inner s = .ok (d, s')) :
    ∃ ls, s.Passes ls s' ∧ Derives n (.stmt d) ls := by
  rw [stmt, run_get_bind] at h
  generalize ahead : s.peek = t at h
  generalize ahead' : s.second = t' at h
  split at h
  next => exact define_ok sound ahead h
  next => exact cond_ok sound ahead h
  next =>
    rw [run_advance_bind, run_advance_bind, run_skipNewlines_bind] at h
    obtain ⟨e, s₁, run, h⟩ := bind_ok.1 h
    cases h
    obtain ⟨nl, blank, skipped⟩ := s.advance.advance.passes_skipNewlines
    obtain ⟨ls, passed, derived⟩ := sound.expr run
    have named := passes_advance ahead rfl
    have assign := passes_advance (second_eq_peek_advance.symm.trans ahead') rfl
    exact ⟨_, named.cons (assign.cons (skipped.trans passed)), .assign blank derived⟩
  next =>
    obtain ⟨e, run, rfl⟩ := map_ok h
    obtain ⟨ls, passed, derived⟩ := sound.expr run
    exact ⟨ls, passed, .expr derived⟩

omit sound in
theorem endOfStmt_ok {u : Unit} (h : endOfStmt s = .ok (u, s')) :
    s.Passes [⟨.newline, s.pos⟩] s' ∨
      s' = s ∧ (s.peek = .eof ∨ s.peek = .endKw ∨ s.peek = .rbrace ∨ s.peek = .elseKw) := by
  rw [endOfStmt, run_peek_bind] at h
  generalize ahead : s.peek = t at h
  split at h
  next =>
    cases h
    exact .inl (passes_advance ahead rfl)
  all_goals first | (cases h; simp) | exact absurd h not_fail

omit sound in
theorem stmts_closed {closer : Closer} {budget : List Lexeme} {ss : List Stmt}
    (closes : s.peek = .eof ∨ s.peek = .endKw ∨ s.peek = .rbrace ∨ s.peek = .elseKw)
    (h : stmts inner closer budget s = .ok (ss, s')) :
    ss = [] ∧ s' = s ∧ closer.accepts s.peek := by
  cases budget with
  | nil => exact absurd h not_fail
  | cons b budget =>
    have here : s.skipNewlines = s := by
      apply skipNewlines_of_ne
      rcases closes with c | c | c | c <;> simp [c]
    rw [stmts, run_skipNewlines_bind, run_peek_bind, here] at h
    split at h
    next accepted =>
      cases h
      exact ⟨rfl, rfl, accepted⟩
    next =>
      rcases closes with c | c | c | c
      all_goals
        rw [c] at h
        exact absurd h not_fail

theorem stmts_ok {closer : Closer} {budget : List Lexeme} {ss : List Stmt}
    (h : stmts inner closer budget s = .ok (ss, s')) :
    ∃ ls, s.Passes ls s' ∧ Derives n (.stmts ss) ls ∧ closer.accepts s'.peek := by
  induction budget generalizing s ss with
  | nil => exact absurd h not_fail
  | cons b budget ih =>
    obtain ⟨nl, blank, before⟩ := s.passes_skipNewlines
    rw [stmts, run_skipNewlines_bind, run_peek_bind] at h
    split at h
    next accepted =>
      cases h
      exact ⟨nl, before, .noStmts blank, accepted⟩
    next =>
      generalize s.skipNewlines.peek = t at h
      split at h
      iterate 4 exact absurd h not_fail
      obtain ⟨first, s₁, run, h⟩ := bind_ok.1 h
      obtain ⟨_, s₂, next, h⟩ := bind_ok.1 h
      obtain ⟨rest, s₃, more, h⟩ := bind_ok.1 h
      cases h
      obtain ⟨ls, passed, derived⟩ := stmt_ok sound run
      rcases endOfStmt_ok next with line | ⟨rfl, closes⟩
      · obtain ⟨rs, passed', derived', accepted⟩ := ih more
        exact ⟨_, before.trans (passed.trans (line.cons passed')), .stmts blank derived derived',
          accepted⟩
      · obtain ⟨rfl, rfl, accepted⟩ := stmts_closed closes more
        exact ⟨_, before.trans passed, .lastStmt blank derived, accepted⟩

theorem Level.Sound.around : (Level.around inner).Sound (n + 1) where
  expr h := by
    obtain ⟨ls, passed, derived⟩ := binary_ok sound (i := 0) (Nat.zero_le 6) h
    exact ⟨ls, passed, .whole derived⟩
  body h := by
    change Parser.body inner _ _ = _ at h
    rw [Parser.body, run_rounds_bind] at h
    obtain ⟨ls, passed, derived, accepted⟩ := stmts_ok sound h
    exact ⟨ls, passed, .body derived, accepted⟩
  unary h := by
    obtain ⟨ls, passed, derived⟩ := unary_ok sound h
    exact ⟨n, ls, rfl, passed, derived⟩

end

theorem Level.Sound.last : Level.last.Sound 0 where
  expr h := absurd h not_fail
  body h := absurd h not_fail
  unary h := absurd h not_fail

theorem Level.sound_ofNat (n : Nat) : (Level.ofNat n).Sound n := by
  induction n with
  | zero => exact .last
  | succ n ih => exact ih.around

theorem script_ok {tokens : List Lexeme} {script : Script} (h : Parser.script tokens = .ok script) :
    ∃ ls rest, tokens = ls ++ rest ∧ Derives maxNesting (.body script.body) ls ∧
      ∀ l ∈ rest.head?, l.token = .eof := by
  obtain ⟨⟨ss, s⟩, run, h⟩ := bind_eq_ok.1 h
  cases h
  obtain ⟨ls, passed, derived, accepted⟩ := (Level.sound_ofNat maxNesting).body run
  refine ⟨ls, s.rest, passed.1, derived, fun l hl => ?_⟩
  rw [TokenStream.peek, Option.mem_def.1 hl] at accepted
  change Closer.eof.accepts l.token = true at accepted
  generalize l.token = t at accepted
  cases t <;> trivial

end Parser
end WidgetScript
