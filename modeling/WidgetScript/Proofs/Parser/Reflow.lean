import Mathlib
import WidgetScript.Proofs.Parser.Reread

/-! A script with its lines broken elsewhere is the same script. -/
namespace WidgetScript.Parser

/-- Newlines may be put in behind a bracket that opens, a comma, a colon, `=` and an infix operator,
and before a bracket that closes. -/
theorem script_reflowed {tokens tokens' : List Lexeme} {s : Script}
    (h : Reflowed .fresh .closing tokens tokens') (read : script tokens = .ok s) :
    ∃ s', script tokens' = .ok s' ∧ s'.bare = s.bare := by
  obtain ⟨⟨ss, rest⟩, run, same⟩ := bind_eq_ok.1 read
  cases same
  have level : (Level.ofNat maxNesting).Retells (fun _ => False) (.ofNat maxNesting) :=
    Level.retells_ofNat (Nat.le_refl _) (.inl rfl)
  have ahead : TokenStream.Broken .fresh .any (TokenStream.ofList tokens)
      (TokenStream.ofList tokens') := h.mono fun _ _ => rfl
  have again := level.body (fun _ => rfl : ∀ t, Closer.eof.accepts t = _) _ _ ahead
  rw [run] at again
  generalize run' : (Level.ofNat maxNesting).body .eof (TokenStream.ofList tokens') = r at again
  cases again with
  | @ok _ r same =>
    refine ⟨⟨r.1⟩, ?_, congrArg Script.mk same.1.symm⟩
    rw [script, run']
    rfl
  | tooDeep _ excuse => exact excuse.elim

/-- A call over several lines; the first minus is a sign and the second one an operator. -/
theorem script_reflowed_call :
    let at' (t : Token) : Lexeme := ⟨t, .start⟩
    let tokens := [Token.ident "f", .lparen, .minus, .number 1, .minus, .number 2, .comma,
      .ident "k", .colon, .lbracket, .rbracket, .rparen, .eof].map at'
    let tokens' := [Token.ident "f", .lparen, .newline, .newline, .minus, .number 1, .minus,
      .newline, .number 2, .comma, .newline, .ident "k", .colon, .newline, .lbracket, .newline,
      .rbracket, .newline, .rparen, .eof].map at'
    Reflowed .fresh .closing tokens tokens' ∧
      ∃ s s', script tokens = .ok s ∧ script tokens' = .ok s' ∧ s'.bare = s.bare := by
  intro at' tokens tokens'
  have step {lead : Lead} {gap : Gap} {t : Token} {ls ls' : List Lexeme} (k : Nat)
      (allowed : k ≠ 0 → gap.allows t) (rest : Reflowed (lead.after t) (lead.gap t) ls ls') :
      Reflowed lead gap (at' t :: ls) (List.replicate k (at' .newline) ++ at' t :: ls') :=
    .cons (fun l hl => List.eq_of_mem_replicate hl ▸ rfl)
      (fun some => allowed fun none => some (none ▸ rfl)) (.same t) rest
  have broken : Reflowed .fresh .closing tokens tokens' :=
    step 0 (absurd rfl) <| step 0 (absurd rfl) <| step 2 (fun _ => rfl) <| step 0 (absurd rfl) <|
    step 0 (absurd rfl) <| step 1 (fun _ => rfl) <| step 0 (absurd rfl) <| step 1 (fun _ => rfl) <|
    step 0 (absurd rfl) <| step 1 (fun _ => rfl) <| step 1 (fun _ => rfl) <|
    step 1 (fun _ => rfl) <| step 0 (absurd rfl) <| .nil nofun (absurd rfl)
  refine ⟨broken, ?_⟩
  have parsed : (script tokens).isOk = true := by cbv
  cases read : script tokens with
  | ok s =>
    obtain ⟨s', read', same⟩ := script_reflowed broken read
    exact ⟨s, s', rfl, read', same⟩
  | error e =>
    rw [read] at parsed
    cases parsed

end WidgetScript.Parser
