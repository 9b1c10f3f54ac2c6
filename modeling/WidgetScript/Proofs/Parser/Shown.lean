import Mathlib
import WidgetScript.Proofs.Parser.Places
import WidgetScript.Proofs.Token.Shown

/-! That every place in a tree, or in the fault that stands for it, is one of the text. The tokens
ahead are shown in the text, and one lemma for each parser says that what it makes of them is too.
What stands in a placeholder was read in the same text, however deep it is. -/
namespace WidgetScript

/-- The names that a node has in the text, with their places: that of a variable, of a call, of
each keyword argument of a call, and of what is assigned to. -/
def Node.names : Node → List (String × Position)
  | .expr (.ident name pos) => [(name, pos)]
  | .expr (.call name _ kwargs _ pos) => (name, pos) :: kwargs.map fun e => (e.key, (entry e).pos)
  | .stmt (.assign name _ pos) => [(name, pos)]
  | _ => []

/-- The text shows the node: its place is one of the text, and its names stand where they should. -/
structure Node.ShownIn (text : List Char) (n : Node) : Prop where
  place : Shows text n.pos []
  names : ∀ name ∈ n.names, Shows text name.2 name.1.toList

def Shown (text : List Char) (ns : List Node) : Prop := ∀ n ∈ ns, n.ShownIn text

structure TokenStream.ShownIn (text : List Char) (s : TokenStream) : Prop where
  lexemes : ∀ l ∈ s.rest, l.ShownIn text
  finish : Shows text s.finish []

/-- Run on a stream that the text shows, the parser keeps to the text. -/
def Parses {α : Type} (text : List Char) (s : TokenStream) (m : Parse α) (post : α → Prop) : Prop :=
  s.ShownIn text → Sited text (m s) fun r => post r.1 ∧ r.2.ShownIn text

variable {text : List Char}

section
variable {n : Node} {ns ns' : List Node}

theorem shown_nil : Shown text [] := nofun

theorem shown_cons : Shown text (n :: ns) ↔ n.ShownIn text ∧ Shown text ns := List.forall_mem_cons

theorem shown_append : Shown text (ns ++ ns') ↔ Shown text ns ∧ Shown text ns' :=
  List.forall_mem_append

theorem Shown.plain (place : Shows text n.pos []) (plain : n.names = []) (inside : Shown text ns) :
    Shown text (n :: ns) :=
  shown_cons.2 ⟨⟨place, by rw [plain]; exact nofun⟩, inside⟩

end

namespace TokenStream.ShownIn
variable {s : TokenStream}

theorem advance (h : s.ShownIn text) : s.advance.ShownIn text :=
  ⟨fun l hl => h.lexemes l (List.mem_of_mem_tail hl), h.finish⟩

theorem skipNewlines (h : s.ShownIn text) : s.skipNewlines.ShownIn text :=
  ⟨fun l hl => h.lexemes l ((List.dropWhile_sublist _).mem hl), h.finish⟩

theorem ahead (h : s.ShownIn text) : (⟨s.peek, s.pos⟩ : Lexeme).ShownIn text := by
  obtain ⟨_ | ⟨l, ls⟩, finish⟩ := s
  · exact ⟨h.finish, nofun⟩
  · exact h.lexemes l List.mem_cons_self

theorem place (h : s.ShownIn text) : Shows text s.pos [] := h.ahead.place

theorem ofList {ls : List Lexeme} (h : ∀ l ∈ ls, l.ShownIn text) :
    (TokenStream.ofList ls).ShownIn text := by
  refine ⟨h, ?_⟩
  change Shows text ((ls.getLast?.map Lexeme.pos).getD .start) []
  cases last : ls.getLast? with
  | none => exact (Shows.start text).place
  | some l => exact (h l (List.mem_of_getLast? last)).place

end TokenStream.ShownIn

namespace Parses
open Parse
variable {α β : Type} {s : TokenStream} {m : Parse α} {f : α → Parse β} {a : α}
  {post : α → Prop} {post' : β → Prop} {t : Token} {fault : SyntaxFault}

theorem bind (first : Parses text s m post) (next : ∀ t a, post a → Parses text t (f a) post') :
    Parses text s (m >>= f) post' := by
  intro shown
  refine (first shown).bind ?_
  rintro ⟨a, t⟩ ⟨h, shown'⟩
  exact next t a h shown'

theorem pure (h : post a) : Parses text s (pure a) post := fun shown => .ok ⟨h, shown⟩

theorem map {f : α → β} (first : Parses text s m post) (next : ∀ a, post a → post' (f a)) :
    Parses text s (f <$> m) post' := first.bind fun _ a h => pure (next a h)

theorem fail : Parses text s (fail fault) post := fun shown => .error shown.place

theorem failAt {p : Position} (here : Shows text p []) : Parses text s (failAt fault p t) post :=
  fun _ => .error here

theorem get {f : TokenStream → Parse β}
    (h : (⟨s.peek, s.pos⟩ : Lexeme).ShownIn text → Parses text s (f s) post') :
    Parses text s (MonadState.get >>= f) post' := fun shown => h shown.ahead shown

theorem peek {f : Token → Parse β} (h : Parses text s (f s.peek) post') :
    Parses text s (Parse.peek >>= f) post' := h

theorem pos {f : Position → Parse β}
    (h : (⟨s.peek, s.pos⟩ : Lexeme).ShownIn text → Parses text s (f s.pos) post') :
    Parses text s (Parse.pos >>= f) post' := fun shown => h shown.ahead shown

theorem rounds {f : List Lexeme → Parse β} (h : Parses text s (f s.budget) post') :
    Parses text s (Parse.rounds >>= f) post' := h

theorem advance {f : Unit → Parse β} (h : Parses text s.advance (f ()) post') :
    Parses text s (Parse.advance >>= f) post' := fun shown => h shown.advance

theorem skipNewlines {f : Unit → Parse β} (h : Parses text s.skipNewlines (f ()) post') :
    Parses text s (Parse.skipNewlines >>= f) post' := fun shown => h shown.skipNewlines

theorem advanced : Parses text s Parse.advance fun _ => True :=
  fun shown => .ok ⟨trivial, shown.advance⟩

theorem expect : Parses text s (expect t) fun _ => True := by
  rw [Parse.expect]
  refine peek ?_
  split
  · exact advanced
  · exact fail

theorem ident : Parses text s ident fun _ => True := by
  rw [Parse.ident]
  refine peek ?_
  split
  · exact advance (pure trivial)
  · exact fail

theorem separator : Parses text s (separator t fault) fun _ => True := by
  rw [Parse.separator]
  refine peek ?_
  split
  · exact advanced
  · split
    · exact pure trivial
    · exact fail

end Parses

namespace Parser
variable {inner : Level} {s : TokenStream} {p : Position}

structure Level.Shows (text : List Char) (level : Level) : Prop where
  expr : ∀ {s}, Parses text s level.expr fun e => Shown text e.nodes
  body : ∀ {s closer}, Parses text s (level.body closer) fun ss => Shown text (Stmt.nodesAll ss)
  unary : ∀ {s}, Parses text s level.unary fun e => Shown text e.nodes

section
variable (level : inner.Shows text)
include level

theorem hole_shown {source : String} (here : Shows text p source.toList) :
    Sited text (hole inner source p) fun e => Shown text e.nodes := by
  rw [hole]
  refine (Lexer.tokenizeAt_sited here).bind fun tokens lexed => ?_
  have shown := (TokenStream.ShownIn.ofList lexed).skipNewlines
  dsimp only
  split
  · exact .error here.place
  · refine (level.expr shown).bind ?_
    rintro ⟨e, s⟩ ⟨value, behind⟩
    dsimp only
    split
    · exact .ok value
    · exact .error behind.skipNewlines.place

theorem parts_shown {segments : List Segment}
    (holes : ∀ hole ∈ segments.filterMap Segment.hole?, Shows text hole.2 hole.1.toList) :
    Sited text (parts inner segments) fun ps => Shown text (Part.nodesAll ps) := by
  induction segments with
  | nil => exact .ok shown_nil
  | cons segment segments ih =>
    cases segment with
    | text t => exact (ih holes).bind fun ps rest => .ok rest
    | placeholder source p =>
      obtain ⟨here, holes⟩ := List.forall_mem_cons.1 holes
      refine (hole_shown level here).bind fun e first => (ih holes).bind fun ps rest => .ok ?_
      exact shown_append.2 ⟨first, rest⟩

theorem string_shown {segments : List Segment} (here : (⟨.str segments, p⟩ : Lexeme).ShownIn text) :
    Parses text s (string inner segments p) fun e => Shown text e.nodes := by
  intro shown
  unfold string
  split
  · exact .ok ⟨.plain here.place rfl shown_nil, shown⟩
  · refine (parts_shown level here.holes).bind fun ps parts => .ok ⟨?_, shown⟩
    exact .plain here.place rfl parts

theorem items_shown {budget : List Lexeme} :
    Parses text s (items inner budget) fun es => Shown text (Expr.nodesAll es) := by
  induction budget generalizing s with
  | nil => exact .fail
  | cons b budget ih =>
    rw [items]
    refine .skipNewlines (.peek ?_)
    split
    · exact .pure shown_nil
    · refine level.expr.bind fun _ e first => .skipNewlines (Parses.separator.bind fun _ _ _ => ?_)
      exact ih.bind fun _ es rest => .pure (shown_append.2 ⟨first, rest⟩)

theorem list_shown (here : Shows text p []) :
    Parses text s (list inner p) fun e => Shown text e.nodes := by
  rw [list]
  refine .rounds ((items_shown level).bind fun _ es items => .advance (.pure ?_))
  exact .plain here rfl items

omit level in
theorem mapKey_shown : Parses text s mapKey fun _ => True := by
  rw [mapKey]
  refine .pos fun here => .peek (.advance ?_)
  split
  · exact .pure trivial
  · exact .pure trivial
  · exact .failAt here.place
  · exact .failAt here.place

theorem entries_shown {budget : List Lexeme} {seen : List String} :
    Parses text s (entries inner budget seen) fun es => Shown text (Entry.nodesAll es) := by
  induction budget generalizing s seen with
  | nil => exact .fail
  | cons b budget ih =>
    rw [entries]
    refine .skipNewlines (.peek ?_)
    split
    · exact .pure shown_nil
    · refine .pos fun here => mapKey_shown.bind fun _ key _ => ?_
      split
      · exact .failAt here.place
      · refine Parses.expect.bind fun _ _ _ => .skipNewlines (level.expr.bind fun _ e first => ?_)
        refine .skipNewlines (Parses.separator.bind fun _ _ _ => ih.bind fun _ es rest => .pure ?_)
        exact shown_append.2 ⟨.plain here.place rfl first, rest⟩

theorem map_shown (here : Shows text p []) :
    Parses text s (map inner p) fun e => Shown text e.nodes := by
  rw [map]
  refine .rounds ((entries_shown level).bind fun _ es entries => .advance (.pure ?_))
  exact .plain here rfl entries

theorem block_shown : Parses text s (block inner) fun b => Shown text b.nodes := by
  rw [block]
  refine .pos fun here => .peek ?_
  split
  all_goals
    refine .advance (level.body.bind fun _ ss body => Parses.expect.bind fun _ _ _ => .pure ?_)
    exact .plain here.place rfl body

def KeysShown (text : List Char) (es : List Entry) : Prop :=
  ∀ e ∈ es, Shows text (Node.entry e).pos e.key.toList

theorem arguments_shown {name : String} {budget : List Lexeme} {seen : List String} :
    Parses text s (arguments inner name budget seen) fun as =>
      Shown text (as.flatMap Argument.nodes) ∧ KeysShown text (as.filterMap (·.keyword?)) := by
  induction budget generalizing s seen with
  | nil => exact .fail
  | cons b budget ih =>
    rw [arguments]
    refine .skipNewlines (.get fun here => ?_)
    generalize s.skipNewlines.pos = p at here
    generalize s.skipNewlines.peek = t at here
    split
    · exact .pure ⟨shown_nil, List.forall_mem_nil _⟩
    next _ _ key _ =>
      split
      · exact .failAt here.place
      · refine .advance (.advance (.skipNewlines (level.expr.bind fun _ e first => ?_)))
        refine .skipNewlines (Parses.separator.bind fun _ _ _ => ih.bind fun _ as rest => .pure ?_)
        obtain ⟨nodes, keys⟩ := rest
        exact ⟨shown_append.2 ⟨.plain here.place rfl first, nodes⟩,
          List.forall_mem_cons.2 ⟨here.name, keys⟩⟩
    next =>
      refine level.expr.bind fun _ e first => .skipNewlines (Parses.separator.bind fun _ _ _ => ?_)
      exact ih.bind fun _ as rest => .pure ⟨shown_append.2 ⟨first, rest.1⟩, rest.2⟩

omit level in
theorem shown_call {name : String} {args : List Expr} {kwargs : List Entry} {b : Option Block}
    (here : Shows text p name.toList) (keys : KeysShown text kwargs)
    (given : Shown text (Expr.nodesAll args ++ Entry.nodesAll kwargs))
    (block : Shown text (Block.nodes? b)) : Shown text (Expr.call name args kwargs b p).nodes := by
  have names : (Node.expr (.call name args kwargs b p)).ShownIn text :=
    ⟨here.place, List.forall_mem_cons.2 ⟨here, List.forall_mem_map.2 keys⟩⟩
  exact shown_cons.2 ⟨names, shown_append.2 ⟨given, block⟩⟩

theorem call_shown {name : String} (here : Shows text p name.toList) :
    Parses text s (call inner name p) fun e => Shown text e.nodes := by
  rw [call]
  refine .advance (.rounds ((arguments_shown level).bind fun _ as shown => ?_))
  obtain ⟨nodes, keys⟩ := shown
  -- The nodes of the arguments are the same in whichever order the call keeps them.
  have given : Shown text (Expr.nodesAll (as.filterMap (·.positional?)) ++
      Entry.nodesAll (as.filterMap (·.keyword?))) :=
    fun n mem => nodes n ((nodes_arguments as).mem_iff.1 mem)
  have block {s} : Parses text s (some <$> block inner) fun b => Shown text (Block.nodes? b) :=
    (block_shown level).map fun _ shown => shown
  have alone {s} : Parses text s (pure none) fun b => Shown text (Block.nodes? b) := .pure shown_nil
  refine .advance (.peek ?_)
  split
  iterate 2 exact block.bind fun _ b shown => .pure (shown_call here keys given shown)
  · exact alone.bind fun _ b shown => .pure (shown_call here keys given shown)

theorem primary_shown : Parses text s (primary inner) fun e => Shown text e.nodes := by
  rw [primary]
  refine .pos fun here => .peek (.advance ?_)
  -- Which token is ahead decides, and it is the one that is known to be shown.
  generalize s.pos = p at here
  generalize s.peek = t at here
  split
  iterate 5 exact .pure (.plain here.place rfl shown_nil)
  · exact string_shown level here
  next name =>
    refine .peek ?_
    split
    · exact call_shown level here.name
    · refine (block_shown level).bind fun _ b block => .pure ?_
      exact shown_call here.name (List.forall_mem_nil _) shown_nil block
    · have names : (Node.expr (.ident name p)).ShownIn text :=
        ⟨here.place, List.forall_mem_singleton.2 here.name⟩
      exact .pure (shown_cons.2 ⟨names, shown_nil⟩)
  · exact list_shown level here.place
  · exact map_shown level here.place
  · refine .skipNewlines (level.expr.bind fun _ e value => .skipNewlines ?_)
    exact Parses.expect.bind fun _ _ _ => .pure value
  · exact .failAt here.place

theorem accesses_shown {budget : List Lexeme} {target : Expr} (before : Shown text target.nodes) :
    Parses text s (accesses inner budget target) fun e => Shown text e.nodes := by
  induction budget generalizing s target with
  | nil => exact .pure before
  | cons b budget ih =>
    rw [accesses]
    refine .pos fun here => .peek ?_
    have place := here.place
    split
    · refine .advance (.skipNewlines (level.expr.bind fun _ key inside => .skipNewlines ?_))
      refine Parses.expect.bind fun _ _ _ => ih ?_
      exact .plain place rfl (shown_append.2 ⟨before, inside⟩)
    · refine .advance (Parses.ident.bind fun _ name _ => ih ?_)
      exact .plain place rfl before
    · exact .pure before

theorem unary_shown : Parses text s (unary inner) fun e => Shown text e.nodes := by
  rw [unary]
  refine .pos fun here => .peek ?_
  split
  · refine .advance (level.unary.bind fun _ e operand => .pure ?_)
    exact .plain here.place rfl operand
  · rw [postfixed]
    exact (primary_shown level).bind fun _ e target => .rounds (accesses_shown level target)

omit level in
theorem chain_shown {op? : Token → Option BinaryOp} {operand : Parse Expr} {budget : List Lexeme}
    {lhs : Expr} (reads : ∀ {s}, Parses text s operand fun e => Shown text e.nodes)
    (before : Shown text lhs.nodes) :
    Parses text s (chain op? operand budget lhs) fun e => Shown text e.nodes := by
  induction budget generalizing s lhs with
  | nil => exact .pure before
  | cons b budget ih =>
    rw [chain]
    refine .peek ?_
    split
    · refine .pos fun here => .advance (.skipNewlines (reads.bind fun _ rhs behind => ih ?_))
      exact .plain here.place rfl (shown_append.2 ⟨before, behind⟩)
    · exact .pure before

/-- By induction from the strongest operators to the weakest. -/
theorem binary_shown (tiers : List (Token → Option BinaryOp)) :
    Parses text s (binary inner tiers) fun e => Shown text e.nodes := by
  induction tiers generalizing s with
  | nil => exact unary_shown level
  | cons tier tiers ih =>
    rw [binary]
    exact ih.bind fun _ lhs first => .rounds (chain_shown ih first)

omit level in
theorem params_shown {budget : List Lexeme} {seen : List String} :
    Parses text s (params budget seen) fun _ => True := by
  induction budget generalizing s seen with
  | nil => exact .fail
  | cons b budget ih =>
    rw [params]
    refine .peek ?_
    split
    · exact .pure trivial
    · refine .pos fun here => Parses.ident.bind fun _ name _ => ?_
      split
      · exact .failAt here.place
      · have rest {s} {seen} : Parses text s (do pure (name :: (← params budget seen)))
            fun _ => True := ih.bind fun _ _ _ => .pure trivial
        refine .skipNewlines (.peek ?_)
        split
        · exact .advance (.skipNewlines rest)
        · exact rest
        · exact Parses.bind (.fail : Parses text _ _ fun _ => True) fun _ _ _ => rest

theorem define_shown : Parses text s (define inner) fun d => Shown text d.nodes := by
  rw [define]
  refine .pos fun here => .advance (Parses.ident.bind fun _ name _ => .peek ?_)
  have rest {t : TokenStream} {names : List String} : Parses text t
      (do
        let ss ← inner.body (.ofDef s.pos)
        Parse.expect .endKw
        pure (Stmt.define name names ss s.pos))
      fun d => Shown text d.nodes := by
    refine level.body.bind fun _ ss body => Parses.expect.bind fun _ _ _ => .pure ?_
    exact .plain here.place rfl body
  split
  · refine .advance (.skipNewlines (.rounds (params_shown.bind fun _ names _ => ?_)))
    exact .advance rest
  · exact rest

theorem cond_shown : Parses text s (cond inner) fun c => Shown text c.nodes := by
  rw [cond]
  refine .pos fun here => .advance (level.expr.bind fun _ test first => ?_)
  refine level.body.bind fun _ yes chosen => .peek ?_
  have done {t : TokenStream} {no : List Stmt} (other : Shown text (Stmt.nodesAll no)) :
      Parses text t
        (do
          Parse.expect .endKw
          pure (Stmt.cond test yes no s.pos))
        fun c => Shown text c.nodes := by
    refine Parses.expect.bind fun _ _ _ => .pure ?_
    exact .plain here.place rfl (shown_append.2 ⟨shown_append.2 ⟨first, chosen⟩, other⟩)
  split
  · exact .advance (level.body.bind fun _ no other => done other)
  · exact done shown_nil

theorem stmt_shown : Parses text s (stmt inner) fun d => Shown text d.nodes := by
  rw [stmt]
  refine .get fun here => ?_
  generalize s.pos = p at here
  generalize s.peek = t at here
  split
  · exact define_shown level
  · exact cond_shown level
  next _ _ name _ =>
    refine .advance (.advance (.skipNewlines (level.expr.bind fun _ e value => .pure ?_)))
    have names : (Node.stmt (.assign name e p)).ShownIn text :=
      ⟨here.place, List.forall_mem_singleton.2 here.name⟩
    exact shown_cons.2 ⟨names, value⟩
  · exact level.expr.map fun _ value => value

omit level in
theorem endOfStmt_shown : Parses text s endOfStmt fun _ => True := by
  rw [endOfStmt]
  refine .peek ?_
  split
  · exact .advanced
  iterate 4 exact .pure trivial
  · exact .fail

theorem stmts_shown {closer : Closer} {budget : List Lexeme} :
    Parses text s (stmts inner closer budget) fun ss => Shown text (Stmt.nodesAll ss) := by
  induction budget generalizing s with
  | nil => exact .fail
  | cons b budget ih =>
    rw [stmts]
    refine .skipNewlines (.peek ?_)
    split
    · exact .pure shown_nil
    · split
      iterate 4 exact .fail
      · refine (stmt_shown level).bind fun _ first here => endOfStmt_shown.bind fun _ _ _ => ?_
        exact ih.bind fun _ rest behind => .pure (shown_append.2 ⟨here, behind⟩)

theorem Level.Shows.around : (Level.around inner).Shows text where
  expr := binary_shown level tiers
  body := .rounds (stmts_shown level)
  unary := unary_shown level

end

theorem Level.Shows.last : Level.last.Shows text where
  expr := .fail
  body := .fail
  unary := .fail

theorem Level.shows_ofNat (n : Nat) : (Level.ofNat n).Shows text := by
  induction n with
  | zero => exact .last
  | succ n ih => exact ih.around

end Parser

/-- Whether a source is a script or not, all places that are told of it are its own. The fault is in
one of them; so is each node of the script, those in placeholders at any depth included, and a
variable, a call, a keyword argument and an assignment are where their names are. -/
theorem Script.parse_points_into_source (source : String) :
    (∀ e, Script.parse source = .error e → Shows source.toList e.pos []) ∧
      ∀ script, Script.parse source = .ok script → ∀ n ∈ script.nodes,
        Shows source.toList n.pos [] ∧
          ∀ name ∈ n.names, Shows source.toList name.2 name.1.toList := by
  have parsed : Sited source.toList (Script.parse source) fun script =>
      Shown source.toList script.nodes := by
    refine (Lexer.tokenizeAt_sited (Shows.start _)).bind fun tokens lexed => ?_
    have level : (Parser.Level.ofNat maxNesting).Shows source.toList :=
      Parser.Level.shows_ofNat maxNesting
    exact (level.body (.ofList lexed)).bind fun r ⟨nodes, _⟩ => .ok nodes
  refine ⟨parsed.fails, fun script ok n mem => ?_⟩
  obtain ⟨place, names⟩ := parsed.gives script ok n mem
  exact ⟨place, names⟩

set_option maxRecDepth 2000 in
/-- A placeholder in a placeholder, behind the end of a line in its string; and one that breaks
off, for which what is missing would stand in front of the brace. -/
theorem Script.parse_points_into_source_nested :
    let source := "t(a: \"\n#\x7bf(\"#\x7bb\x7d\")\x7d\")"
    let f := Expr.call "f" [.interpolated [.hole (.ident "b" ⟨2, 8⟩)] ⟨2, 5⟩] [] none ⟨2, 3⟩
    let text := Expr.interpolated [.text "\n", .hole f] ⟨1, 6⟩
    let script : Script := ⟨[.expr (.call "t" [] [.mk "a" text ⟨1, 3⟩] none ⟨1, 1⟩)]⟩
    let broken := "\n\"#\x7b-\x7d\""
    let e : SyntaxError := ⟨.expectedValue, ⟨2, 5⟩, some "end of input"⟩
    Script.parse source = .ok script ∧
      (∀ n ∈ script.nodes, Shows source.toList n.pos [] ∧
        ∀ name ∈ n.names, Shows source.toList name.2 name.1.toList) ∧
      Shows source.toList ⟨2, 8⟩ "b".toList ∧
      Script.parse broken = .error e ∧ Shows broken.toList e.pos [] := by
  intro source f text script broken e
  have parsed : Script.parse source = .ok script := by cbv
  have failed : Script.parse broken = .error e := by cbv
  have shown := (parse_points_into_source source).2 script parsed
  have inside : Node.expr (.ident "b" ⟨2, 8⟩) ∈ script.nodes := by
    simp [script, text, f, Script.nodes, Stmt.nodesAll, Stmt.nodes, Expr.nodes, Expr.nodesAll,
      Entry.nodesAll, Entry.nodes, Part.nodesAll, Part.nodes]
  have named := (shown _ inside).2 ("b", ⟨2, 8⟩) List.mem_cons_self
  exact ⟨parsed, shown, named, failed, (parse_points_into_source broken).1 e failed⟩

end WidgetScript
