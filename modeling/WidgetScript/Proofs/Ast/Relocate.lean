import Mathlib.Logic.Equiv.Basic
import WidgetScript.Proofs.Ast.Bare
import WidgetScript.Proofs.Ast.Nodes

/-! A tree with its places changed. Of two trees that are equal when bare, each comes from the
other by such a change, if no two nodes of it stand at one place. -/
namespace WidgetScript

mutual

def Expr.relocate (f : Position → Position) : Expr → Expr
  | .literal value pos => .literal value (f pos)
  | .interpolated parts pos => .interpolated (Part.relocateAll f parts) (f pos)
  | .ident name pos => .ident name (f pos)
  | .symbol name pos => .symbol name (f pos)
  | .list items pos => .list (Expr.relocateAll f items) (f pos)
  | .map entries pos => .map (Entry.relocateAll f entries) (f pos)
  | .call name args kwargs block pos =>
      .call name (Expr.relocateAll f args) (Entry.relocateAll f kwargs) (Block.relocate? f block)
        (f pos)
  | .index target index pos => .index (target.relocate f) (index.relocate f) (f pos)
  | .field target name pos => .field (target.relocate f) name (f pos)
  | .unary op operand pos => .unary op (operand.relocate f) (f pos)
  | .binary op lhs rhs pos => .binary op (lhs.relocate f) (rhs.relocate f) (f pos)

def Expr.relocateAll (f : Position → Position) : List Expr → List Expr
  | [] => []
  | e :: es => e.relocate f :: Expr.relocateAll f es

def Part.relocate (f : Position → Position) : Part → Part
  | .text text => .text text
  | .hole value => .hole (value.relocate f)

def Part.relocateAll (f : Position → Position) : List Part → List Part
  | [] => []
  | p :: ps => p.relocate f :: Part.relocateAll f ps

def Entry.relocate (f : Position → Position) : Entry → Entry
  | .mk key value pos => .mk key (value.relocate f) (f pos)

def Entry.relocateAll (f : Position → Position) : List Entry → List Entry
  | [] => []
  | e :: es => e.relocate f :: Entry.relocateAll f es

def Block.relocate (f : Position → Position) : Block → Block
  | .mk delimiter body pos => .mk delimiter (Stmt.relocateAll f body) (f pos)

def Block.relocate? (f : Position → Position) : Option Block → Option Block
  | none => none
  | some b => some (b.relocate f)

def Stmt.relocate (f : Position → Position) : Stmt → Stmt
  | .expr value => .expr (value.relocate f)
  | .assign name value pos => .assign name (value.relocate f) (f pos)
  | .define name params body pos => .define name params (Stmt.relocateAll f body) (f pos)
  | .cond test yes no pos =>
      .cond (test.relocate f) (Stmt.relocateAll f yes) (Stmt.relocateAll f no) (f pos)

def Stmt.relocateAll (f : Position → Position) : List Stmt → List Stmt
  | [] => []
  | s :: ss => s.relocate f :: Stmt.relocateAll f ss

end

def Script.relocate (f : Position → Position) (s : Script) : Script :=
  ⟨Stmt.relocateAll f s.body⟩

variable {f : Position → Position}

mutual

theorem Expr.bare_relocate : (e : Expr) → (e.relocate f).bare = e.bare
  | .literal _ _ | .ident _ _ | .symbol _ _ => rfl
  | .interpolated parts _ => by simp [Expr.relocate, Expr.bare, Part.bareAll_relocateAll parts]
  | .list items _ => by simp [Expr.relocate, Expr.bare, Expr.bareAll_relocateAll items]
  | .map entries _ => by simp [Expr.relocate, Expr.bare, Entry.bareAll_relocateAll entries]
  | .call _ args kwargs block _ => by
    simp [Expr.relocate, Expr.bare, Expr.bareAll_relocateAll args, Entry.bareAll_relocateAll kwargs,
      Block.bare?_relocate? block]
  | .index target index _ => by
    simp [Expr.relocate, Expr.bare, target.bare_relocate, index.bare_relocate]
  | .field target _ _ => by simp [Expr.relocate, Expr.bare, target.bare_relocate]
  | .unary _ operand _ => by simp [Expr.relocate, Expr.bare, operand.bare_relocate]
  | .binary _ lhs rhs _ => by simp [Expr.relocate, Expr.bare, lhs.bare_relocate, rhs.bare_relocate]

theorem Expr.bareAll_relocateAll : (es : List Expr) →
    Expr.bareAll (Expr.relocateAll f es) = Expr.bareAll es
  | [] => rfl
  | e :: es => by
    simp [Expr.relocateAll, Expr.bareAll, e.bare_relocate, Expr.bareAll_relocateAll es]

theorem Part.bare_relocate : (p : Part) → (p.relocate f).bare = p.bare
  | .text _ => rfl
  | .hole value => by simp [Part.relocate, Part.bare, value.bare_relocate]

theorem Part.bareAll_relocateAll : (ps : List Part) →
    Part.bareAll (Part.relocateAll f ps) = Part.bareAll ps
  | [] => rfl
  | p :: ps => by
    simp [Part.relocateAll, Part.bareAll, p.bare_relocate, Part.bareAll_relocateAll ps]

theorem Entry.bare_relocate : (e : Entry) → (e.relocate f).bare = e.bare
  | .mk _ value _ => by simp [Entry.relocate, Entry.bare, value.bare_relocate]

theorem Entry.bareAll_relocateAll : (es : List Entry) →
    Entry.bareAll (Entry.relocateAll f es) = Entry.bareAll es
  | [] => rfl
  | e :: es => by
    simp [Entry.relocateAll, Entry.bareAll, e.bare_relocate, Entry.bareAll_relocateAll es]

theorem Block.bare_relocate : (b : Block) → (b.relocate f).bare = b.bare
  | .mk _ body _ => by simp [Block.relocate, Block.bare, Stmt.bareAll_relocateAll body]

theorem Block.bare?_relocate? : (b : Option Block) →
    Block.bare? (Block.relocate? f b) = Block.bare? b
  | none => rfl
  | some b => by simp [Block.relocate?, Block.bare?, b.bare_relocate]

theorem Stmt.bare_relocate : (s : Stmt) → (s.relocate f).bare = s.bare
  | .expr value => by simp [Stmt.relocate, Stmt.bare, value.bare_relocate]
  | .assign _ value _ => by simp [Stmt.relocate, Stmt.bare, value.bare_relocate]
  | .define _ _ body _ => by simp [Stmt.relocate, Stmt.bare, Stmt.bareAll_relocateAll body]
  | .cond test yes no _ => by
    simp [Stmt.relocate, Stmt.bare, test.bare_relocate, Stmt.bareAll_relocateAll yes,
      Stmt.bareAll_relocateAll no]

theorem Stmt.bareAll_relocateAll : (ss : List Stmt) →
    Stmt.bareAll (Stmt.relocateAll f ss) = Stmt.bareAll ss
  | [] => rfl
  | s :: ss => by
    simp [Stmt.relocateAll, Stmt.bareAll, s.bare_relocate, Stmt.bareAll_relocateAll ss]

end

def Moves (f : Position → Position) (as bs : List Node) : Prop :=
  ∀ pair ∈ as.zip bs, f pair.1.pos = pair.2.pos

@[simp] theorem moves_cons {a b : Node} {as bs : List Node} :
    Moves f (a :: as) (b :: bs) ↔ f a.pos = b.pos ∧ Moves f as bs := by
  simp [Moves]

-- Behind each piece stands what comes after it in the whole tree, so that the counterparts
-- need no counting.
mutual

theorem Expr.relocate_eq : (a b : Expr) → a.bare = b.bare → ∀ {as bs : List Node},
    Moves f (a.nodes ++ as) (b.nodes ++ bs) → a.relocate f = b ∧ Moves f as bs
  | .literal _ _, b, h, _, _, moves => by
    cases b with
    | literal value pos =>
      obtain ⟨rfl, -⟩ := Expr.literal.inj h
      obtain ⟨rfl, moves₁⟩ := moves_cons.1 moves
      exact ⟨rfl, moves₁⟩
    | _ => exact nomatch h
  | .interpolated parts _, b, h, _, _, moves => by
    cases b with
    | interpolated parts' pos =>
      obtain ⟨same, -⟩ := Expr.interpolated.inj h
      obtain ⟨rfl, moves₁⟩ := moves_cons.1 moves
      obtain ⟨rfl, moves₂⟩ := Part.relocateAll_eq parts _ same moves₁
      exact ⟨rfl, moves₂⟩
    | _ => exact nomatch h
  | .ident _ _, b, h, _, _, moves => by
    cases b with
    | ident name pos =>
      obtain ⟨rfl, -⟩ := Expr.ident.inj h
      obtain ⟨rfl, moves₁⟩ := moves_cons.1 moves
      exact ⟨rfl, moves₁⟩
    | _ => exact nomatch h
  | .symbol _ _, b, h, _, _, moves => by
    cases b with
    | symbol name pos =>
      obtain ⟨rfl, -⟩ := Expr.symbol.inj h
      obtain ⟨rfl, moves₁⟩ := moves_cons.1 moves
      exact ⟨rfl, moves₁⟩
    | _ => exact nomatch h
  | .list items _, b, h, _, _, moves => by
    cases b with
    | list items' pos =>
      obtain ⟨same, -⟩ := Expr.list.inj h
      obtain ⟨rfl, moves₁⟩ := moves_cons.1 moves
      obtain ⟨rfl, moves₂⟩ := Expr.relocateAll_eq items _ same moves₁
      exact ⟨rfl, moves₂⟩
    | _ => exact nomatch h
  | .map entries _, b, h, _, _, moves => by
    cases b with
    | map entries' pos =>
      obtain ⟨same, -⟩ := Expr.map.inj h
      obtain ⟨rfl, moves₁⟩ := moves_cons.1 moves
      obtain ⟨rfl, moves₂⟩ := Entry.relocateAll_eq entries _ same moves₁
      exact ⟨rfl, moves₂⟩
    | _ => exact nomatch h
  | .call name args kwargs block _, b, h, _, _, moves => by
    cases b with
    | call name' args' kwargs' block' pos =>
      obtain ⟨rfl, sameArgs, sameKwargs, sameBlock, -⟩ := Expr.call.inj h
      simp only [Expr.nodes, List.cons_append, List.append_assoc, moves_cons] at moves
      obtain ⟨rfl, moves₁⟩ := moves
      obtain ⟨rfl, moves₂⟩ := Expr.relocateAll_eq args _ sameArgs moves₁
      obtain ⟨rfl, moves₃⟩ := Entry.relocateAll_eq kwargs _ sameKwargs moves₂
      obtain ⟨rfl, moves₄⟩ := Block.relocate?_eq block _ sameBlock moves₃
      exact ⟨rfl, moves₄⟩
    | _ => exact nomatch h
  | .index target key _, b, h, _, _, moves => by
    cases b with
    | index target' key' pos =>
      obtain ⟨sameTarget, sameKey, -⟩ := Expr.index.inj h
      simp only [Expr.nodes, List.cons_append, List.append_assoc, moves_cons] at moves
      obtain ⟨rfl, moves₁⟩ := moves
      obtain ⟨rfl, moves₂⟩ := target.relocate_eq _ sameTarget moves₁
      obtain ⟨rfl, moves₃⟩ := key.relocate_eq _ sameKey moves₂
      exact ⟨rfl, moves₃⟩
    | _ => exact nomatch h
  | .field target name _, b, h, _, _, moves => by
    cases b with
    | field target' name' pos =>
      obtain ⟨same, rfl, -⟩ := Expr.field.inj h
      obtain ⟨rfl, moves₁⟩ := moves_cons.1 moves
      obtain ⟨rfl, moves₂⟩ := target.relocate_eq _ same moves₁
      exact ⟨rfl, moves₂⟩
    | _ => exact nomatch h
  | .unary op operand _, b, h, _, _, moves => by
    cases b with
    | unary op' operand' pos =>
      obtain ⟨rfl, same, -⟩ := Expr.unary.inj h
      obtain ⟨rfl, moves₁⟩ := moves_cons.1 moves
      obtain ⟨rfl, moves₂⟩ := operand.relocate_eq _ same moves₁
      exact ⟨rfl, moves₂⟩
    | _ => exact nomatch h
  | .binary op lhs rhs _, b, h, _, _, moves => by
    cases b with
    | binary op' lhs' rhs' pos =>
      obtain ⟨rfl, sameLhs, sameRhs, -⟩ := Expr.binary.inj h
      simp only [Expr.nodes, List.cons_append, List.append_assoc, moves_cons] at moves
      obtain ⟨rfl, moves₁⟩ := moves
      obtain ⟨rfl, moves₂⟩ := lhs.relocate_eq _ sameLhs moves₁
      obtain ⟨rfl, moves₃⟩ := rhs.relocate_eq _ sameRhs moves₂
      exact ⟨rfl, moves₃⟩
    | _ => exact nomatch h

theorem Expr.relocateAll_eq : (as bs : List Expr) → Expr.bareAll as = Expr.bareAll bs →
    ∀ {ns ms : List Node}, Moves f (Expr.nodesAll as ++ ns) (Expr.nodesAll bs ++ ms) →
    Expr.relocateAll f as = bs ∧ Moves f ns ms
  | [], [], _, _, _, moves => ⟨rfl, moves⟩
  | [], b :: bs, h, _, _, _ => nomatch h
  | a :: as, [], h, _, _, _ => nomatch h
  | a :: as, b :: bs, h, _, _, moves => by
    obtain ⟨first, rest⟩ := List.cons.inj h
    rw [Expr.nodesAll, Expr.nodesAll, List.append_assoc, List.append_assoc] at moves
    obtain ⟨rfl, moves₁⟩ := a.relocate_eq b first moves
    obtain ⟨rfl, moves₂⟩ := Expr.relocateAll_eq as bs rest moves₁
    exact ⟨rfl, moves₂⟩

theorem Part.relocate_eq : (a b : Part) → a.bare = b.bare → ∀ {as bs : List Node},
    Moves f (a.nodes ++ as) (b.nodes ++ bs) → a.relocate f = b ∧ Moves f as bs
  | .text _, .text _, h, _, _, moves => by
    obtain rfl := Part.text.inj h
    exact ⟨rfl, moves⟩
  | .text _, .hole _, h, _, _, _ => nomatch h
  | .hole _, .text _, h, _, _, _ => nomatch h
  | .hole value, .hole value', h, _, _, moves => by
    obtain ⟨rfl, moves₁⟩ := value.relocate_eq value' (Part.hole.inj h) moves
    exact ⟨rfl, moves₁⟩

theorem Part.relocateAll_eq : (as bs : List Part) → Part.bareAll as = Part.bareAll bs →
    ∀ {ns ms : List Node}, Moves f (Part.nodesAll as ++ ns) (Part.nodesAll bs ++ ms) →
    Part.relocateAll f as = bs ∧ Moves f ns ms
  | [], [], _, _, _, moves => ⟨rfl, moves⟩
  | [], b :: bs, h, _, _, _ => nomatch h
  | a :: as, [], h, _, _, _ => nomatch h
  | a :: as, b :: bs, h, _, _, moves => by
    obtain ⟨first, rest⟩ := List.cons.inj h
    rw [Part.nodesAll, Part.nodesAll, List.append_assoc, List.append_assoc] at moves
    obtain ⟨rfl, moves₁⟩ := a.relocate_eq b first moves
    obtain ⟨rfl, moves₂⟩ := Part.relocateAll_eq as bs rest moves₁
    exact ⟨rfl, moves₂⟩

theorem Entry.relocate_eq : (a b : Entry) → a.bare = b.bare → ∀ {as bs : List Node},
    Moves f (a.nodes ++ as) (b.nodes ++ bs) → a.relocate f = b ∧ Moves f as bs
  | .mk key value _, .mk key' value' _, h, _, _, moves => by
    obtain ⟨rfl, same, -⟩ := Entry.mk.inj h
    obtain ⟨rfl, moves₁⟩ := moves_cons.1 moves
    obtain ⟨rfl, moves₂⟩ := value.relocate_eq value' same moves₁
    exact ⟨rfl, moves₂⟩

theorem Entry.relocateAll_eq : (as bs : List Entry) → Entry.bareAll as = Entry.bareAll bs →
    ∀ {ns ms : List Node}, Moves f (Entry.nodesAll as ++ ns) (Entry.nodesAll bs ++ ms) →
    Entry.relocateAll f as = bs ∧ Moves f ns ms
  | [], [], _, _, _, moves => ⟨rfl, moves⟩
  | [], b :: bs, h, _, _, _ => nomatch h
  | a :: as, [], h, _, _, _ => nomatch h
  | a :: as, b :: bs, h, _, _, moves => by
    obtain ⟨first, rest⟩ := List.cons.inj h
    rw [Entry.nodesAll, Entry.nodesAll, List.append_assoc, List.append_assoc] at moves
    obtain ⟨rfl, moves₁⟩ := a.relocate_eq b first moves
    obtain ⟨rfl, moves₂⟩ := Entry.relocateAll_eq as bs rest moves₁
    exact ⟨rfl, moves₂⟩

theorem Block.relocate_eq : (a b : Block) → a.bare = b.bare → ∀ {as bs : List Node},
    Moves f (a.nodes ++ as) (b.nodes ++ bs) → a.relocate f = b ∧ Moves f as bs
  | .mk _ body _, .mk _ body' _, h, _, _, moves => by
    obtain ⟨rfl, same, -⟩ := Block.mk.inj h
    obtain ⟨rfl, moves₁⟩ := moves_cons.1 moves
    obtain ⟨rfl, moves₂⟩ := Stmt.relocateAll_eq body body' same moves₁
    exact ⟨rfl, moves₂⟩

theorem Block.relocate?_eq : (a b : Option Block) → Block.bare? a = Block.bare? b →
    ∀ {as bs : List Node}, Moves f (Block.nodes? a ++ as) (Block.nodes? b ++ bs) →
    Block.relocate? f a = b ∧ Moves f as bs
  | none, none, _, _, _, moves => ⟨rfl, moves⟩
  | none, some _, h, _, _, _ => nomatch h
  | some _, none, h, _, _, _ => nomatch h
  | some a, some b, h, _, _, moves => by
    obtain ⟨rfl, moves₁⟩ := a.relocate_eq b (Option.some.inj h) moves
    exact ⟨rfl, moves₁⟩

theorem Stmt.relocate_eq : (a b : Stmt) → a.bare = b.bare → ∀ {as bs : List Node},
    Moves f (a.nodes ++ as) (b.nodes ++ bs) → a.relocate f = b ∧ Moves f as bs
  | .expr value, b, h, _, _, moves => by
    cases b with
    | expr value' =>
      obtain ⟨rfl, moves₁⟩ := value.relocate_eq value' (Stmt.expr.inj h) moves
      exact ⟨rfl, moves₁⟩
    | _ => exact nomatch h
  | .assign _ value _, b, h, _, _, moves => by
    cases b with
    | assign name value' pos =>
      obtain ⟨rfl, same, -⟩ := Stmt.assign.inj h
      obtain ⟨rfl, moves₁⟩ := moves_cons.1 moves
      obtain ⟨rfl, moves₂⟩ := value.relocate_eq value' same moves₁
      exact ⟨rfl, moves₂⟩
    | _ => exact nomatch h
  | .define _ _ body _, b, h, _, _, moves => by
    cases b with
    | define name params body' pos =>
      obtain ⟨rfl, rfl, same, -⟩ := Stmt.define.inj h
      obtain ⟨rfl, moves₁⟩ := moves_cons.1 moves
      obtain ⟨rfl, moves₂⟩ := Stmt.relocateAll_eq body body' same moves₁
      exact ⟨rfl, moves₂⟩
    | _ => exact nomatch h
  | .cond test yes no _, b, h, _, _, moves => by
    cases b with
    | cond test' yes' no' pos =>
      obtain ⟨sameTest, sameYes, sameNo, -⟩ := Stmt.cond.inj h
      simp only [Stmt.nodes, List.cons_append, List.append_assoc, moves_cons] at moves
      obtain ⟨rfl, moves₁⟩ := moves
      obtain ⟨rfl, moves₂⟩ := test.relocate_eq test' sameTest moves₁
      obtain ⟨rfl, moves₃⟩ := Stmt.relocateAll_eq yes yes' sameYes moves₂
      obtain ⟨rfl, moves₄⟩ := Stmt.relocateAll_eq no no' sameNo moves₃
      exact ⟨rfl, moves₄⟩
    | _ => exact nomatch h

theorem Stmt.relocateAll_eq : (as bs : List Stmt) → Stmt.bareAll as = Stmt.bareAll bs →
    ∀ {ns ms : List Node}, Moves f (Stmt.nodesAll as ++ ns) (Stmt.nodesAll bs ++ ms) →
    Stmt.relocateAll f as = bs ∧ Moves f ns ms
  | [], [], _, _, _, moves => ⟨rfl, moves⟩
  | [], b :: bs, h, _, _, _ => nomatch h
  | a :: as, [], h, _, _, _ => nomatch h
  | a :: as, b :: bs, h, _, _, moves => by
    obtain ⟨first, rest⟩ := List.cons.inj h
    rw [Stmt.nodesAll, Stmt.nodesAll, List.append_assoc, List.append_assoc] at moves
    obtain ⟨rfl, moves₁⟩ := a.relocate_eq b first moves
    obtain ⟨rfl, moves₂⟩ := Stmt.relocateAll_eq as bs rest moves₁
    exact ⟨rfl, moves₂⟩

end

theorem exists_injective_of_nodup {ps qs : List Position} (hp : ps.Nodup) (hq : qs.Nodup) :
    ∃ f : Position → Position, Function.Injective f ∧ ∀ pair ∈ ps.zip qs, f pair.1 = pair.2 := by
  induction ps generalizing qs with
  | nil => exact ⟨id, Function.injective_id, by simp⟩
  | cons p ps ih =>
    cases qs with
    | nil => exact ⟨id, Function.injective_id, by simp⟩
    | cons q qs =>
      obtain ⟨newP, hp⟩ := List.nodup_cons.1 hp
      obtain ⟨newQ, hq⟩ := List.nodup_cons.1 hq
      obtain ⟨f, inj, moves⟩ := ih hp hq
      -- Exchanging two images puts the first place right and leaves the others as they are.
      refine ⟨Equiv.swap (f p) q ∘ f, (Equiv.swap _ _).injective.comp inj, ?_⟩
      rw [List.zip_cons_cons, List.forall_mem_cons]
      refine ⟨Equiv.swap_apply_left _ _, fun ⟨p', q'⟩ mem => ?_⟩
      have image : f p' = q' := moves _ mem
      obtain ⟨memP, memQ⟩ := List.of_mem_zip mem
      rw [Function.comp_apply, image, Equiv.swap_apply_of_ne_of_ne]
      · rw [← image, Ne, inj.eq_iff]
        rintro rfl
        exact newP memP
      · rintro rfl
        exact newQ memQ

/-- Of two scripts that are equal when bare, and each of which has its nodes at distinct places,
a one-to-one change of places makes the one into the other. -/
theorem Script.exists_relocate {a b : Script} (same : a.bare = b.bare) (ha : a.places.Nodup)
    (hb : b.places.Nodup) : ∃ f, Function.Injective f ∧ a.relocate f = b := by
  obtain ⟨f, inj, moves⟩ := exists_injective_of_nodup ha hb
  refine ⟨f, inj, ?_⟩
  have moves : Moves f (Stmt.nodesAll a.body ++ []) (Stmt.nodesAll b.body ++ []) := by
    intro pair mem
    refine moves (pair.1.pos, pair.2.pos) ?_
    rw [List.append_nil, List.append_nil] at mem
    rw [Script.places, Script.places, List.zip_map]
    exact List.mem_map_of_mem mem
  obtain ⟨body, -⟩ := Stmt.relocateAll_eq a.body b.body (congrArg Script.body same) moves
  rw [Script.relocate, body]

end WidgetScript
