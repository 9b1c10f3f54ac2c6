import WidgetScript.Proofs.Parser.Operators

/-! Values without operators: literals and names, lists and maps, calls with their arguments.
Each loop over items is followed by induction on the items; the tokens ahead bound its rounds. -/
namespace WidgetScript.Parser
open TokenStream Parse

variable {inner : Level} {s s' : TokenStream} {t : Token} {ts : List Token}
  {tss uss : List (List Token)} {e : Expr}

theorem commas_cons_cons : commas ((t :: ts) :: tss) = t :: commas (ts :: tss) := by
  cases tss <;> simp [commas]

theorem commas_nil_cons : commas ([] :: ts :: tss) = .comma :: commas (ts :: tss) := by
  simp [commas]

theorem Leading.commas (h : Leading ts) : Leading (commas (ts :: tss)) := by
  cases tss with
  | nil => simpa [WidgetScript.commas] using h
  | cons us tss =>
    rw [WidgetScript.commas, List.intercalate_cons_cons, List.append_assoc]
    exact h.append nofun nofun

theorem ahead_commas_cons (ahead : Ahead (commas (ts :: tss)) s s') (close : s'.peek.closes) :
    ∃ s₁ s₂, Ahead ts s s₁ ∧ (s₁.peek = .comma ∨ s₁.peek.closes) ∧ Ahead (commas tss) s₂ s' ∧
      s₂.rest.length ≤ s₁.rest.length ∧ ∀ fault, separator s'.peek fault s₁ = .ok ((), s₂) := by
  cases tss with
  | nil =>
    rw [commas, List.intercalate_singleton] at ahead
    refine ⟨s', s', ahead, .inr close, rfl, Nat.le_refl _, fun fault => ?_⟩
    rw [separator, run_peek_bind]
    generalize s'.peek = u at close
    cases u <;> first | rfl | exact nomatch close
  | cons us tss =>
    rw [commas, List.intercalate_cons_cons, List.append_assoc, ahead_append] at ahead
    obtain ⟨s₁, before, behind⟩ := ahead
    refine ⟨s₁, s₁.advance, before, .inl behind.peek, behind.advance, length_advance_le,
      fun fault => ?_⟩
    rw [separator, run_peek_bind, behind.peek]
    rfl

theorem Whole.item (h : Whole inner ts e) (ahead : Ahead (commas (ts :: tss)) s s')
    (close : s'.peek.closes) :
    ∃ e' s₁, e'.bare = e.bare ∧ Ahead (commas tss) s₁ s' ∧ s₁.rest.length < s.rest.length ∧
      ∀ {β : Type} (fault : SyntaxFault) (f : Expr → Parse β),
        (do let value ← inner.expr; skipNewlines; separator s'.peek fault; f value) s =
          f e' s₁ := by
  obtain ⟨s₁, s₂, before, next, behind, shorter, separated⟩ := ahead_commas_cons ahead close
  have grip : s₁.peek.grip = 0 := by
    rcases next with next | next
    · rw [next]; rfl
    · exact Token.grip_of_closes next
  have noNewline : s₁.peek ≠ .newline := by
    rintro e
    simp [e, Token.closes] at next
  obtain ⟨e', run, bare⟩ := h.reads before grip.le
  have : ts.length ≠ 0 := by
    intro e
    rw [List.length_eq_zero_iff] at e
    exact (e ▸ h.leading :)
  have passed := before.length
  refine ⟨e', s₂, bare, behind, by omega, fun fault f => ?_⟩
  simp only [run_bind run, run_skipNewlines_bind, skipNewlines_of_ne noNewline,
    run_bind (separated fault)]

theorem Whole.peek_ne_newline (h : Whole inner ts e) (ahead : Ahead (commas (ts :: tss)) s s') :
    s.peek ≠ .newline := h.leading.commas.peek_ne ahead rfl

/-! ## Lists -/

theorem items_run {es : List Expr} (h : List.Forall₂ (Whole inner) tss es) (budget : List Lexeme)
    (ahead : Ahead (commas tss) s s') (close : s'.peek = .rbracket)
    (long : s.rest.length < budget.length) :
    ∃ es', items inner budget s = .ok (es', s') ∧ Expr.bareAll es' = Expr.bareAll es := by
  induction h generalizing budget s with
  | nil =>
    obtain rfl : s = s' := ahead
    match budget with
    | b :: budget =>
      refine ⟨[], ?_, rfl⟩
      rw [items, run_skipNewlines_bind, skipNewlines_of_ne (by rw [close]; decide), run_peek_bind,
        if_pos close, run_pure]
  | @cons ts e tss es head tail ih =>
    obtain ⟨e', s₁, bare, behind, shorter, run⟩ := head.item ahead (by rw [close]; rfl)
    match budget with
    | b :: budget =>
      obtain ⟨es', runRest, bareRest⟩ := ih budget behind
        (by rw [List.length_cons] at long; omega)
      refine ⟨e' :: es', ?_, by rw [Expr.bareAll, Expr.bareAll, bare, bareRest]⟩
      rw [items, run_skipNewlines_bind, skipNewlines_of_ne (head.peek_ne_newline ahead),
        run_peek_bind, if_neg (head.leading.commas.peek_ne ahead rfl), ← close, run,
        run_bind runRest, run_pure]

theorem Spelled.list {es : List Expr} (h : List.Forall₂ (Whole inner) tss es) (pos : Position) :
    Spelled inner 8 (.lbracket :: (commas tss ++ [.rbracket])) (.list es pos) := by
  refine .ofPrimary ⟨rfl, nofun⟩ rfl fun s s' ahead _ => ?_
  obtain ⟨s₁, within, close⟩ := ahead_append.1 ahead.advance
  obtain ⟨es', run, bare⟩ := items_run h s.advance.budget within close.peek
    s.advance.lt_length_budget
  refine ⟨.list es' s.pos, ?_, by simp only [Expr.bare, bare]⟩
  rw [primary, run_pos_bind, run_peek_bind, ahead.peek]
  simp only [run_advance_bind, Parser.list, run_rounds_bind]
  rw [run_bind run, run_advance_bind, run_pure, show s₁.advance = s' from close.advance]

/-! ## Maps -/

def Keyed (inner : Level) (ts : List Token) (entry : Entry) : Prop :=
  ∃ us, ts = .ident entry.key :: .colon :: us ∧ Whole inner us entry.value

theorem run_mapKey_bind {β : Type} {key : String} (h : s.peek = .ident key)
    (f : String → Parse β) : (mapKey >>= f) s = f key s.advance := by
  refine run_bind ?_ f
  rw [mapKey, run_pos_bind, run_peek_bind, h]
  rfl

theorem fresh_of_nodup {key : String} {keys seen : List String} (nodup : (key :: keys).Nodup)
    (fresh : ∀ k ∈ key :: keys, k ∉ seen) :
    key ∉ seen ∧ keys.Nodup ∧ ∀ k ∈ keys, k ∉ key :: seen := by
  rw [List.nodup_cons] at nodup
  refine ⟨fresh key List.mem_cons_self, nodup.2, fun k hk => ?_⟩
  rw [List.mem_cons, not_or]
  exact ⟨fun e => nodup.1 (e ▸ hk), fresh k (List.mem_cons_of_mem _ hk)⟩

theorem entries_run {es : List Entry} (h : List.Forall₂ (Keyed inner) tss es)
    (budget : List Lexeme) (seen : List String) (nodup : (es.map Entry.key).Nodup)
    (fresh : ∀ key ∈ es.map Entry.key, key ∉ seen) (ahead : Ahead (commas tss) s s')
    (close : s'.peek = .rbrace) (long : s.rest.length < budget.length) :
    ∃ es', entries inner budget seen s = .ok (es', s') ∧
      Entry.bareAll es' = Entry.bareAll es := by
  induction h generalizing budget seen s with
  | nil =>
    obtain rfl : s = s' := ahead
    match budget with
    | b :: budget =>
      refine ⟨[], ?_, rfl⟩
      rw [entries, run_skipNewlines_bind, skipNewlines_of_ne (by rw [close]; decide),
        run_peek_bind, if_pos close, run_pure]
  | @cons ts e tss es head tail ih =>
    obtain ⟨us, rfl, whole⟩ := head
    obtain ⟨unseen, nodup', fresh'⟩ := fresh_of_nodup nodup fresh
    rw [commas_cons_cons, commas_cons_cons] at ahead
    have colon := ahead.advance
    obtain ⟨value, s₁, bare, behind, shorter, run⟩ :=
      whole.item colon.advance (by rw [close]; rfl)
    have passed : s.advance.advance.rest.length ≤ s.rest.length :=
      length_advance_le.trans length_advance_le
    match budget with
    | b :: budget =>
      obtain ⟨es', runRest, bareRest⟩ := ih budget _ nodup' fresh' behind
        (by rw [List.length_cons] at long; omega)
      refine ⟨.mk e.key value s.pos :: es', ?_, ?_⟩
      · rw [entries, run_skipNewlines_bind, skipNewlines_of_ne (by rw [ahead.peek]; nofun),
          run_peek_bind, if_neg (by rw [ahead.peek]; nofun), run_pos_bind,
          run_mapKey_bind ahead.peek, if_neg unseen, run_expect_bind colon.peek,
          run_skipNewlines_bind, skipNewlines_of_ne (whole.peek_ne_newline colon.advance),
          ← close, run, run_bind runRest, run_pure]
      · rw [Entry.bareAll, Entry.bareAll, Entry.bare, bare, bareRest, e.bare_eq]

theorem Spelled.map {es : List Entry} (h : List.Forall₂ (Keyed inner) tss es)
    (nodup : (es.map Entry.key).Nodup) (pos : Position) :
    Spelled inner 8 (.lbrace :: (commas tss ++ [.rbrace])) (.map es pos) := by
  refine .ofPrimary ⟨rfl, nofun⟩ rfl fun s s' ahead _ => ?_
  obtain ⟨s₁, within, close⟩ := ahead_append.1 ahead.advance
  obtain ⟨es', run, bare⟩ :=
    entries_run h s.advance.budget [] nodup nofun within close.peek s.advance.lt_length_budget
  refine ⟨.map es' s.pos, ?_, by simp only [Expr.bare, bare]⟩
  rw [primary, run_pos_bind, run_peek_bind, ahead.peek]
  simp only [run_advance_bind, Parser.map, run_rounds_bind]
  rw [run_bind run, run_advance_bind, run_pure, show s₁.advance = s' from close.advance]

/-! ## Calls -/

theorem arguments_close (name : String) {budget : List Lexeme} (seen : List String)
    (close : s.peek = .rparen) (long : s.rest.length < budget.length) :
    arguments inner name budget seen s = .ok ([], s) := by
  match budget with
  | b :: budget =>
    rw [arguments, run_skipNewlines_bind, skipNewlines_of_ne (by rw [close]; decide),
      run_get_bind, close]
    rfl

theorem arguments_keywords (name : String) {kwargs : List Entry}
    (h : List.Forall₂ (Keyed inner) tss kwargs) (budget : List Lexeme) (seen : List String)
    (nodup : (kwargs.map Entry.key).Nodup) (fresh : ∀ key ∈ kwargs.map Entry.key, key ∉ seen)
    (ahead : Ahead (commas tss) s s') (close : s'.peek = .rparen)
    (long : s.rest.length < budget.length) :
    ∃ as, arguments inner name budget seen s = .ok (as, s') ∧
      as.filterMap (·.positional?) = [] ∧
      Entry.bareAll (as.filterMap (·.keyword?)) = Entry.bareAll kwargs := by
  induction h generalizing budget seen s with
  | nil =>
    obtain rfl : s = s' := ahead
    exact ⟨[], arguments_close name seen close long, rfl, rfl⟩
  | @cons ts e tss kwargs head tail ih =>
    obtain ⟨us, rfl, whole⟩ := head
    obtain ⟨unseen, nodup', fresh'⟩ := fresh_of_nodup nodup fresh
    rw [commas_cons_cons, commas_cons_cons] at ahead
    have colon := ahead.advance
    obtain ⟨value, s₁, bare, behind, shorter, run⟩ :=
      whole.item colon.advance (by rw [close]; rfl)
    have passed : s.advance.advance.rest.length ≤ s.rest.length :=
      length_advance_le.trans length_advance_le
    match budget with
    | b :: budget =>
      obtain ⟨as, runRest, positional, keyword⟩ := ih budget _ nodup' fresh' behind
        (by rw [List.length_cons] at long; omega)
      refine ⟨.keyword (.mk e.key value s.pos) :: as, ?_, positional, ?_⟩
      · rw [arguments, run_skipNewlines_bind, skipNewlines_of_ne (by rw [ahead.peek]; nofun),
          run_get_bind, second_eq_peek_advance, ahead.peek, colon.peek]
        simp only [if_neg unseen]
        rw [run_advance_bind, run_advance_bind, run_skipNewlines_bind,
          skipNewlines_of_ne (whole.peek_ne_newline colon.advance), ← close, run,
          run_bind runRest, run_pure]
      · change Entry.bareAll (.mk e.key value s.pos :: as.filterMap (·.keyword?)) = _
        rw [Entry.bareAll, Entry.bareAll, Entry.bare, bare, keyword, e.bare_eq]

theorem arguments_run (name : String) {args : List Expr} {kwargs : List Entry}
    (h : List.Forall₂ (Whole inner) tss args) (hkw : List.Forall₂ (Keyed inner) uss kwargs)
    (nodup : (kwargs.map Entry.key).Nodup) (budget : List Lexeme)
    (ahead : Ahead (commas (tss ++ uss)) s s') (close : s'.peek = .rparen)
    (long : s.rest.length < budget.length) :
    ∃ as, arguments inner name budget [] s = .ok (as, s') ∧
      Expr.bareAll (as.filterMap (·.positional?)) = Expr.bareAll args ∧
      Entry.bareAll (as.filterMap (·.keyword?)) = Entry.bareAll kwargs := by
  induction h generalizing budget s with
  | nil =>
    obtain ⟨as, run, positional, keyword⟩ :=
      arguments_keywords name hkw budget [] nodup nofun ahead close long
    exact ⟨as, run, by rw [positional], keyword⟩
  | @cons ts e tss args head tail ih =>
    obtain ⟨e', s₁, bare, behind, shorter, run⟩ := head.item ahead (by rw [close]; rfl)
    have notClose : s.peek ≠ .rparen := head.leading.commas.peek_ne ahead rfl
    have notKey : ∀ key, s.peek = .ident key → s.second = .colon → False := fun key hkey =>
      (head.leading.commas.second_ne ahead (by rw [close]; nofun) (by rw [close]; nofun) hkey).1
    match budget with
    | b :: budget =>
      obtain ⟨as, runRest, positional, keyword⟩ := ih budget behind
        (by rw [List.length_cons] at long; omega)
      refine ⟨.positional e' :: as, ?_, ?_, keyword⟩
      · rw [arguments, run_skipNewlines_bind, skipNewlines_of_ne (head.peek_ne_newline ahead),
          run_get_bind]
        simp only
        rw [← close, run, run_bind runRest, run_pure]
      · change Expr.bareAll (e' :: as.filterMap (·.positional?)) = _
        rw [Expr.bareAll, Expr.bareAll, bare, positional]

inductive Follows (inner : Level) : List Token → Option Block → Prop where
  | none : Follows inner [] none
  | some {t : Token} {ts : List Token} {b : Block} (opener : t = .doKw ∨ t = .lbrace)
      (reads : ∀ ⦃s s'⦄, Ahead (t :: ts) s s' →
        ∃ b', block inner s = .ok (b', s') ∧ b'.bare = b.bare) : Follows inner (t :: ts) (some b)

theorem Spelled.call (name : String) {args : List Expr} {kwargs : List Entry}
    (h : List.Forall₂ (Whole inner) tss args) (hkw : List.Forall₂ (Keyed inner) uss kwargs)
    (nodup : (kwargs.map Entry.key).Nodup) {blk : Option Block} (hblk : Follows inner ts blk)
    (pos : Position) :
    Spelled inner 8 (.ident name :: .lparen :: (commas (tss ++ uss) ++ .rparen :: ts))
      (.call name args kwargs blk pos) := by
  refine .ofPrimary ⟨rfl, fun _ _ => ⟨nofun, nofun⟩⟩ rfl fun s s' ahead next => ?_
  have paren := ahead.advance
  obtain ⟨s₁, within, close⟩ := ahead_append.1 paren.advance
  obtain ⟨as, run, positional, keyword⟩ := arguments_run name h hkw nodup
    s.advance.advance.budget within close.peek s.advance.advance.lt_length_budget
  rw [primary, run_pos_bind, run_peek_bind, ahead.peek]
  simp only [run_advance_bind, run_peek_bind, paren.peek, Parser.call, run_rounds_bind,
    run_bind run]
  have behind := close.advance
  cases hblk with
  | none =>
    obtain rfl : s₁.advance = s' := behind
    refine ⟨.call name (as.filterMap (·.positional?)) (as.filterMap (·.keyword?)) none s.pos, ?_,
      by simp only [Expr.bare, positional, keyword, Block.bare?]⟩
    generalize s₁.advance.peek = t at next
    cases t <;> first | rfl | exact absurd next (by decide)
  | some opener reads =>
    obtain ⟨b', runBlock, bare⟩ := reads behind
    refine ⟨.call name (as.filterMap (·.positional?)) (as.filterMap (·.keyword?)) (some b') s.pos,
      ?_, by simp only [Expr.bare, positional, keyword, Block.bare?, bare]⟩
    rw [behind.peek]
    rcases opener with rfl | rfl
    all_goals simp only [run_bind (run_map runBlock some), run_pure]

/-! ## Literals and names -/

theorem Spelled.literal (value : Literal) (pos : Position) :
    Spelled inner 8 [value.token] (.literal value pos) := by
  refine .ofPrimary ⟨?_, ?_⟩ ?_ fun s s' ahead _ => ⟨.literal value s.pos, ?_, rfl⟩
  · rcases value with _ | _ | ⟨_ | _⟩ | _ <;> rfl
  · rcases value with _ | _ | ⟨_ | _⟩ | _ <;> nofun
  · rcases value with _ | _ | ⟨_ | _⟩ | _ <;> rfl
  · rw [primary, run_pos_bind, run_peek_bind, ahead.peek, run_advance_bind,
      show s.advance = s' from ahead.advance]
    rcases value with text | _ | ⟨_ | _⟩ | _
    · simp [Literal.token, string, plainText?]
    all_goals rfl

theorem Spelled.symbol (name : String) (pos : Position) :
    Spelled inner 8 [.symbol name] (.symbol name pos) := by
  refine .ofPrimary ⟨rfl, nofun⟩ rfl fun s s' ahead _ => ⟨.symbol name s.pos, ?_, rfl⟩
  rw [primary, run_pos_bind, run_peek_bind, ahead.peek, run_advance_bind,
    show s.advance = s' from ahead.advance]
  rfl

theorem Spelled.ident (name : String) (pos : Position) :
    Spelled inner 8 [.ident name] (.ident name pos) := by
  refine .ofPrimary ⟨rfl, fun _ _ => ⟨nofun, nofun⟩⟩ rfl fun s s' ahead next =>
    ⟨.ident name s.pos, ?_, rfl⟩
  rw [primary, run_pos_bind, run_peek_bind, ahead.peek, run_advance_bind,
    show s.advance = s' from ahead.advance]
  simp only [run_peek_bind]
  generalize s'.peek = t at next
  cases t <;> first | rfl | exact absurd next (by decide)

end WidgetScript.Parser
