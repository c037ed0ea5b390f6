import ScriptSyntax.Proofs.Printing.Weave

/-! Printed suffixes and collections. A suffix makes a new target of the one before it. -/
namespace ScriptSyntax.Expr

open Lexeme

/-- The expressions were read as the last trees of the forest, and the tokens are still ahead. -/
def ReachedAll (es : List Expr) (ahead : List Lexeme) (forest : List Tree) (ids : List NodeId)
    (c : Cursor) : Prop :=
  ∃ ts : List Tree, ids = ts.map Tree.id ∧ List.Forall₂ Shows es ts ∧ c.Before ahead (forest ++ ts)

variable {style : Style} {e target : Expr} {es : List Expr} {ls rest : List Lexeme} {l : Lexeme}
  {c : Cursor} {forest : List Tree} {i : NodeId} {next close : Kind} {post : NodeId → Cursor → Prop}

/-- Items are read up to the token that closes them. -/
theorem items_reached (reads : ∀ e ∈ es, Reads e (e.lexemes style)) (closes : l.kind ∈ closers)
    (other : l.kind ≠ .comma) (here : c.Before (itemLexemes style es ++ l :: rest) forest) :
    Gives (Grammar.items [l.kind] (.expression false)) c (ReachedAll es (l :: rest) forest) := by
  induction es generalizing c forest with
  | nil =>
    have stop : [l.kind].contains c.current.kind = true := by simp [here.kind]
    refine Gives.isAtAny.mpr ?_
    rw [if_pos stop]
    exact .pure ⟨[], rfl, .nil, by simpa [itemLexemes] using here⟩
  | cons e es ih =>
    obtain ⟨first, others⟩ := List.forall_mem_cons.mp reads
    rw [itemLexemes, List.append_assoc] at here
    have goesOn := (begins_lexemes style e).goesOn here
    have last : c.current.kind ≠ l.kind := fun same => goesOn (same ▸ closes)
    refine Gives.isAtAny.mpr ?_
    rw [if_neg (by simpa using last)]
    have within : [.comma, l.kind] ⊆ closers :=
      List.cons_subset.mpr ⟨by decide, by simpa using closes⟩
    cases es with
    | nil =>
      refine Gives.bind (.call (first within (by simp) here)) ?_
      rintro _ c₁ ⟨t, rfl, -, shown, here⟩
      refine (Gives.pass (here.kind ▸ other)).bind ?_
      rintro _ _ ⟨rfl, rfl⟩
      exact .pure ⟨[t], rfl, .cons shown .nil, here⟩
    | cons f fs =>
      refine Gives.bind (.call (first within (by simp [sign, Kind.written]) here)) ?_
      rintro _ c₁ ⟨t, rfl, -, shown, here⟩
      refine (here.accept rfl (by simp)).bind ?_
      rintro _ c₂ ⟨rfl, here⟩
      refine Gives.bind (.call (ih others here)) ?_
      rintro _ c₃ ⟨ts, rfl, all, here⟩
      exact .pure ⟨t :: ts, rfl, .cons shown all, by simpa using here⟩

theorem arguments_reached {k : Kind} (reads : ∀ e ∈ es, Reads e (e.lexemes style))
    (closes : k ∈ closers) (other : k ≠ .comma) (is : l.kind = k)
    (here : c.Before (itemLexemes style es ++ l :: rest) forest) :
    Gives (Grammar.arguments k) c (ReachedAll es (l :: rest) forest) := by
  subst is
  exact .call (items_reached reads closes other here)

/-- Whether the tokens are a suffix that makes `e` of its target, where one of the kind is next. -/
def Extends (target e : Expr) (ls : List Lexeme) (next : Kind) : Prop :=
  ∀ ⦃c : Cursor⦄ ⦃l : Lexeme⦄ ⦃rest : List Lexeme⦄ ⦃forest : List Tree⦄ ⦃t : Tree⦄
    ⦃post : NodeId → Cursor → Prop⦄, l.kind = next → t.Settled → target.Shows t →
    c.Before (ls ++ l :: rest) (forest ++ [t]) →
    (∀ i c', e.Reached (l :: rest) forest i c' → Gives (Parse.call (.suffix i)) c' post) →
    Gives (Grammar.suffix t.id) c post

theorem Heads.extend {ls' : List Lexeme} (heads : Heads target ls l.kind)
    (suffix : Extends target e (l :: ls') next) : Heads e (ls ++ l :: ls') next := by
  intro stops c m rest forest post is here more
  rw [List.append_assoc] at here
  refine heads rfl here ?_
  rintro _ c₁ ⟨t, rfl, settled, shown, here⟩
  exact .call (suffix is settled shown here more)

theorem extends_index {place : Expr} (reads : Reads place (place.lexemes style)) :
    Extends target (.index target place)
      (sign .arrOpen :: (place.lexemes style ++ [sign .arrClose])) next := by
  intro c l rest forest t post is settled shown here more
  simp only [List.append_assoc, List.cons_append, List.nil_append] at here
  refine here.current ?_
  have read : Gives (Grammar.access t.id) c
      ((Expr.index target place).Reached (l :: rest) forest) := by
    refine (here.expect rfl (by simp)).bind ?_
    rintro token c₁ ⟨own, here⟩
    refine Gives.bind (.call (reads (by decide) (by decide) here)) ?_
    rintro _ c₂ ⟨p, rfl, -, shown', here⟩
    refine (Gives.pass (by rw [here.kind]; decide)).bind ?_
    rintro _ _ ⟨rfl, rfl⟩
    refine (here.expect rfl (by simp)).bind ?_
    rintro _ c₃ ⟨-, here⟩
    exact Reached.add (.index t p) here (by simp [Shape.children]) rfl rfl
      fun _ => .index own shown shown'
  exact read.bind more

/-- The step of a slice is read where there is one. -/
theorem step?_reached {step : Option Expr} (reads : ∀ e ∈ step, Reads e (e.lexemes style))
    (here : c.Before (stepLexemes style step ++ sign .arrClose :: rest) forest) :
    Gives (Grammar.step? .arrClose) c fun o c' => ∃ s : Option Tree, o = s.map Tree.id ∧
      List.Forall₂ Shows step.toList s.toList ∧
      c'.Before (sign .arrClose :: rest) (forest ++ s.toList) := by
  cases step with
  | none =>
    rw [stepLexemes, List.nil_append] at here
    refine (Gives.pass (by rw [here.kind]; decide)).bind ?_
    rintro _ _ ⟨rfl, rfl⟩
    exact .pure ⟨none, rfl, .nil, by simpa using here⟩
  | some e =>
    rw [stepLexemes, List.cons_append] at here
    refine (here.accept rfl (by simp)).bind ?_
    rintro _ c₁ ⟨rfl, here⟩
    refine Gives.bind (.call (reads e rfl (by decide) (by decide) here)) ?_
    rintro _ c₂ ⟨t, rfl, -, shown, here⟩
    exact .pure ⟨some t, rfl, .cons shown .nil, here⟩

theorem extends_slice {start stop : Expr} {step : Option Expr}
    (first : Reads start (start.lexemes style)) (second : Reads stop (stop.lexemes style))
    (third : ∀ e ∈ step, Reads e (e.lexemes style)) :
    Extends target (.slice target start stop step)
      (sign .arrOpen :: (start.lexemes style ++ sign .colon :: (stop.lexemes style ++
        (stepLexemes style step ++ [sign .arrClose])))) next := by
  intro c l rest forest t post is settled shown here more
  simp only [List.append_assoc, List.cons_append, List.nil_append] at here
  obtain ⟨m, ms, same, stops⟩ : ∃ m ms,
      stepLexemes style step ++ sign .arrClose :: l :: rest = m :: ms ∧
        m.kind ∈ [Kind.colon, .arrClose] := by
    cases step <;> exact ⟨_, _, rfl, by decide⟩
  refine here.current ?_
  have read : Gives (Grammar.access t.id) c
      ((Expr.slice target start stop step).Reached (l :: rest) forest) := by
    refine (here.expect rfl (by simp)).bind ?_
    rintro token c₁ ⟨own, here⟩
    refine Gives.bind (.call (first (by decide) (by decide) here)) ?_
    rintro _ c₂ ⟨a, rfl, -, shown₁, here⟩
    refine (here.accept rfl (by simp)).bind ?_
    rintro _ c₃ ⟨rfl, here⟩
    rw [same] at here
    refine Gives.bind (.call (second (by decide) stops here)) ?_
    rintro _ c₄ ⟨b, rfl, -, shown₂, here⟩
    rw [← same] at here
    refine (step?_reached third here).bind ?_
    rintro _ c₅ ⟨s, rfl, shown₃, here⟩
    refine (here.expect rfl (by simp)).bind ?_
    rintro _ c₆ ⟨-, here⟩
    exact Reached.add (.slice t a b s) here (by simp [Shape.children]) rfl rfl
      fun _ => .slice own shown shown₁ shown₂ shown₃
  exact read.bind more

/-- A property is a name, or stands in parentheses. -/
theorem property_reached {bare : Bool} (named : bare = true → e.isName = true)
    (reads : Reads e (e.lexemes style)) (goesOn : rest ≠ [])
    (here : c.Before (enclose bare (e.lexemes style) ++ rest) forest) :
    Gives Grammar.property c (e.Reached rest forest) := by
  cases bare with
  | true =>
    cases e with
    | atom a =>
      have var : a.lexeme.kind = .var := of_decide_eq_true (named rfl)
      have leaf := a.leaf
      rw [var] at leaf
      have shape : Shape.name = a.shape := Option.some.inj leaf
      rw [enclose, if_pos rfl, lexemes, List.singleton_append] at here
      refine (Gives.pass (by rw [here.kind, var]; decide)).bind ?_
      rintro _ _ ⟨rfl, rfl⟩
      refine (here.expect var goesOn).bind ?_
      rintro token c₁ ⟨own, here⟩
      have made (i : NodeId) : (Expr.atom a).Shows (.node i .name (some token) false) :=
        shape ▸ .atom own
      exact Reached.add .name here (by simp [Shape.children]) rfl rfl made
    | _ => exact absurd (named rfl) Bool.false_ne_true
  | false =>
    simp only [enclose, Bool.false_eq_true, if_false, List.cons_append, List.append_assoc] at here
    refine (here.accept rfl (by simp)).bind ?_
    rintro _ c₁ ⟨rfl, here⟩
    refine Gives.bind (.call (reads (by decide) (by decide) here)) ?_
    rintro _ c₂ ⟨t, rfl, settled, shown, here⟩
    refine (here.expect rfl goesOn).bind ?_
    rintro _ c₃ ⟨-, here⟩
    exact .pure ⟨t, rfl, settled, shown, here⟩

theorem extends_get {property : Expr} {bare optional : Bool}
    (named : bare = true → property.isName = true)
    (reads : Reads property (property.lexemes style)) :
    Extends target (.get target property optional)
      (sign (access optional) :: enclose bare (property.lexemes style)) next := by
  intro c l rest forest t post is settled shown here more
  have read {token : Token} {c' : Cursor} (own : token.lexeme = sign (access optional))
      (here : c'.Before (enclose bare (property.lexemes style) ++ l :: rest) (forest ++ [t])) :
      Gives (do
        let property ← Grammar.property
        let node ← Parse.add (.get t.id property optional) (some token)
        Parse.call (.suffix node)) c' post := by
    refine (property_reached named reads (by simp) here).bind ?_
    rintro _ c'' ⟨p, rfl, -, shown', here⟩
    have own : token.lexeme = ⟨access optional, (access optional).spelling⟩ := by
      cases optional <;> exact own
    exact (Reached.add (.get t p optional) here (by simp [Shape.children]) rfl rfl
      fun _ => .get own shown shown').bind more
  refine here.current ?_
  cases optional <;>
  · refine (here.shift (by simp)).bind ?_
    rintro token c₁ ⟨own, here⟩
    exact read own here

theorem extends_call {args : List Expr} (reads : ∀ e ∈ args, Reads e (e.lexemes style)) :
    Extends target (.call target args)
      (sign .parOpen :: (itemLexemes style args ++ [sign .parClose])) next := by
  intro c l rest forest t post is settled shown here more
  simp only [List.append_assoc, List.cons_append, List.nil_append] at here
  refine here.current ?_
  refine (here.shift (by simp)).bind ?_
  rintro token c₁ ⟨own, here⟩
  refine Gives.bind (arguments_reached reads (by decide) (by decide) rfl here) ?_
  rintro _ c₂ ⟨ts, rfl, all, here⟩
  refine (here.expect rfl (by simp)).bind ?_
  rintro _ c₃ ⟨-, here⟩
  exact (Reached.add (.call t ts) here (by simp [Shape.children]) rfl rfl
    fun _ => .call own shown all).bind more

theorem atomShape?_of_leaf?_none {k : Kind} (none : k.leaf? = none) :
    Grammar.atomShape? k = .none := by
  have all := Kind.of_all (P := fun k => k.leaf?.isNone)
    (Q := fun k => (Grammar.atomShape? k).isNone) (by decide)
    (Option.isNone_iff_eq_none.mpr none)
  exact Option.isNone_iff_eq_none.mp all

/-- An operator behind its operand. A dereference is written as a conjunction, so no term may
begin behind it, and behind a rounding to no places no atom may stand. -/
theorem extends_trailing {op : Kind} (known : op ∈ Fixity.trailing.operators)
    (apart : op = .deref → Grammar.beginsTerm next = false) (leaf : next.leaf? = none) :
    Extends target (.unary .trailing op known target) [sign op] next := by
  intro c l rest forest t post is settled shown here more
  have made {token : Token} {c' : Cursor} (own : token.lexeme = ⟨op, op.spelling⟩)
      (here : c'.Before (l :: rest) (forest ++ [t])) :
      Gives (Parse.add (.unaryOp t.id .trailing) (some token)) c'
        ((Expr.unary .trailing op known target).Reached (l :: rest) forest) :=
    Reached.add (.unaryOp t .trailing) here rfl rfl rfl fun _ => .unary own shown
  refine here.current ?_
  have which : op ∈ [Kind.increment, .decrement, .totalRef] ∨ op = .deref ∨ op = .round := by
    simpa [Fixity.operators, or_assoc] using known
  rcases which with plain | rfl | rfl
  · simp only [List.mem_cons, List.not_mem_nil, or_false] at plain
    rcases plain with rfl | rfl | rfl
    all_goals
      refine (here.shift (by simp)).bind ?_
      rintro token c₁ ⟨own, here⟩
      exact (made own here).bind more
  -- A dereference is told from a conjunction by the token behind it.
  · refine Gives.bind here.peek ?_
    rintro k c₁ ⟨rfl, here⟩
    rw [if_neg (by simp [is, apart rfl])]
    refine (here.shift (by simp)).bind ?_
    rintro mark c₂ ⟨own, here⟩
    have value : mark.value = "&" := congrArg Lexeme.value own
    have own : ({ mark with kind := .deref } : Token).lexeme = ⟨.deref, "&"⟩ :=
      congrArg (Lexeme.mk .deref) value
    exact (made own here).bind more
  -- An atom behind a rounding would be taken for its places.
  · have read : Gives (Grammar.rounding t.id) c
        ((Expr.unary .trailing .round known target).Reached (l :: rest) forest) := by
      refine (here.shift (by simp)).bind ?_
      rintro token c₁ ⟨own, here⟩
      refine here.current ?_
      rw [is, atomShape?_of_leaf?_none leaf]
      exact made own here
    exact read.bind more

/-- What is rounded to places is finished. -/
theorem extends_rounded {places : Atom} :
    Extends target (.rounded target places) [sign .round, places.lexeme] next := by
  intro c l rest forest t post is settled shown here more
  obtain ⟨found, leaf⟩ := Grammar.atomShape?_of_leaf? places.leaf
  have read : Gives (Grammar.rounding t.id) c
      ((Expr.rounded target places).Reached (l :: rest) forest) := by
    refine (here.shift (by simp)).bind ?_
    rintro token c₁ ⟨own, here⟩
    refine here.current ?_
    simp only [found]
    refine (here.shift (by simp)).bind ?_
    rintro digits c₂ ⟨same, here⟩
    refine (here.add (forest ++ [t]) places.shape rfl (by simp [leaf])).bind ?_
    intro j c₃ here
    let p : Tree := .node j places.shape (some digits) false
    refine (here.add forest (.binaryOp t p) rfl (by simp [Shape.children, p])).bind ?_
    intro i c₄ here
    refine here.freeze.bind fun _ c₅ here => .pure ?_
    have ranked : token.kind.precedence = some 4 := congrArg (·.kind.precedence) own
    let link : Link := ⟨i, token, false, none, p, 4, ranked⟩
    have shown' : (Expr.rounded target places).Shows (link.join t link.right) :=
      .rounded own shown same
    exact ⟨_, rfl, Tree.settled_freeze_join settled rfl, shown'.freeze, here⟩
  refine here.current ?_
  exact read.bind more

/-- A collection is a target by itself. -/
theorem term_collection {stops : List Kind} {ahead : List Lexeme} {mid : NodeId → Cursor → Prop}
    (here : c.Before (l :: ahead) forest)
    (opens : l.kind ∈ [Kind.arrOpen, .lArrOpen, .setOpen])
    (read : Gives Grammar.collection c mid)
    (more : ∀ i c', mid i c' → Gives (Parse.call (.suffix i)) c' post) :
    Gives (Grammar.term stops) c post := by
  refine here.current ?_
  simp only [List.mem_cons, List.not_mem_nil, or_false] at opens
  rcases opens with is | is | is <;> rw [is] <;> exact read.bind more

/-- A list is read between its opener and the bracket. -/
theorem list_reached {linked : Bool} {items : List Expr} (goesOn : rest ≠ [])
    (reads : ∀ e ∈ items, Reads e (e.lexemes style))
    (here : c.Before (sign (Grammar.listOpener linked) ::
      (itemLexemes style items ++ sign .arrClose :: rest)) forest) :
    Gives (Grammar.list linked) c ((Expr.list linked items).Reached rest forest) := by
  refine (here.shift (by simp)).bind ?_
  rintro token c₁ ⟨own, here⟩
  have made {ts : List Tree} {c' : Cursor} (all : List.Forall₂ Shows items ts)
      (later : c'.Before rest (forest ++ ts)) :
      Gives (Parse.add (Grammar.listShape linked (ts.map Tree.id)) (some token)) c'
        ((Expr.list linked items).Reached rest forest) := by
    cases linked with
    | true => exact Reached.add (.linkedList ts) later rfl rfl rfl fun _ => .list own all
    | false => exact Reached.add (.arrayList ts) later rfl rfl rfl fun _ => .list own all
  cases items with
  | nil =>
    rw [itemLexemes, List.nil_append] at here
    refine (here.accept rfl goesOn).bind ?_
    rintro _ c₂ ⟨rfl, here⟩
    exact made .nil (by simpa using here)
  | cons e es =>
    obtain ⟨first, others⟩ := List.forall_mem_cons.mp reads
    rw [itemLexemes, List.append_assoc] at here
    have begins := (begins_lexemes style e).goesOn here
    refine (Gives.pass fun same => begins (same ▸ by decide)).bind ?_
    rintro _ _ ⟨rfl, rfl⟩
    cases es with
    | nil =>
      refine Gives.bind (.call (first (by decide) (by decide) here)) ?_
      rintro _ c₂ ⟨t, rfl, -, shown, here⟩
      refine (Gives.pass (by rw [here.kind]; decide)).bind ?_
      rintro _ _ ⟨rfl, rfl⟩
      refine (Gives.pass (by rw [here.kind]; decide)).bind ?_
      rintro _ _ ⟨rfl, rfl⟩
      refine (here.expect rfl goesOn).bind ?_
      rintro _ c₃ ⟨-, here⟩
      exact made (.cons shown .nil) here
    | cons f fs =>
      refine Gives.bind (.call (first (by decide) (by decide) here)) ?_
      rintro _ c₂ ⟨t, rfl, -, shown, here⟩
      refine (Gives.pass (by rw [here.kind]; decide)).bind ?_
      rintro _ _ ⟨rfl, rfl⟩
      refine (here.accept rfl (by simp)).bind ?_
      rintro _ c₃ ⟨rfl, here⟩
      refine (arguments_reached others (by decide) (by decide) rfl here).bind ?_
      rintro _ c₄ ⟨ts, rfl, all, here⟩
      refine (here.expect rfl goesOn).bind ?_
      rintro _ c₅ ⟨-, here⟩
      exact made (.cons shown all) (by simpa using here)

theorem heads_list {linked : Bool} {items : List Expr}
    (reads : ∀ e ∈ items, Reads e (e.lexemes style)) (next : Kind) :
    Heads (.list linked items)
      (sign (Grammar.listOpener linked) :: (itemLexemes style items ++ [sign .arrClose])) next := by
  intro stops c l rest forest post is here more
  simp only [List.append_assoc, List.cons_append, List.nil_append] at here
  refine term_collection here (by cases linked <;> decide) ?_ more
  refine here.current ?_
  have read := list_reached (by simp) reads here
  cases linked <;> exact read

theorem heads_set {items : List Expr} (reads : ∀ e ∈ items, Reads e (e.lexemes style))
    (next : Kind) :
    Heads (.set items) (sign .setOpen :: (itemLexemes style items ++ [sign .setClose])) next := by
  intro stops c l rest forest post is here more
  simp only [List.append_assoc, List.cons_append, List.nil_append] at here
  refine term_collection here (by decide) ?_ more
  refine here.current ?_
  refine (here.shift (by simp)).bind ?_
  rintro token c₁ ⟨own, here⟩
  refine (arguments_reached reads (by decide) (by decide) rfl here).bind ?_
  rintro _ c₂ ⟨ts, rfl, all, here⟩
  refine (here.expect rfl (by simp)).bind ?_
  rintro _ c₃ ⟨-, here⟩
  exact Reached.add (.set ts) here rfl rfl rfl fun _ => .set own all

end ScriptSyntax.Expr
