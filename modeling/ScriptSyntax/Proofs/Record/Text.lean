import Mathlib.Data.List.TakeWhile
import ScriptSyntax.Proofs.Layout.Arena
import ScriptSyntax.Proofs.Scan.Catalog

/-! What the external form tells of a token, of a type and of one node: everything but the places
of tokens. -/
namespace ScriptSyntax

namespace Kind

theorem name_inj {k m : Kind} : k.name = m.name ↔ k = m := by
  -- Numbers are compared faster than strings, so the names are read as numbers.
  let number (name : String) : Nat := name.toByteArray.data.toList.foldl (256 * · + ·.toNat) 0
  have distinct : (all.map fun k => number k.name).Nodup := by decide +kernel
  refine ⟨fun same => ?_, congrArg name⟩
  exact List.inj_on_of_nodup_map distinct (mem_all k) (mem_all m) (congrArg number same)

theorem ne_of_mem_name {k : Kind} {c : Char} (member : c ∈ k.name.toList) : c ≠ '(' := by
  -- A parenthesis is one byte, and bytes are looked through faster than characters.
  have closed : all.all fun k => !k.name.toByteArray.data.toList.contains 40 := by decide +kernel
  rintro rfl
  obtain ⟨before, after, split⟩ := List.append_of_mem member
  have sign : 40 ∈ String.utf8EncodeChar '(' := by decide
  have byte : 40 ∈ k.name.toByteArray.data.toList := by
    rw [← String.utf8Encode_toList, split, List.utf8Encode_append, List.utf8Encode_cons]
    simp [List.utf8Encode_singleton, sign]
  simpa [byte] using List.all_eq_true.mp closed k k.mem_all

end Kind

namespace Token

variable {t u : Token}

theorem unplaced_inj : t.unplaced = u.unplaced ↔ t.kind = u.kind ∧ t.value = u.value := by
  simp [unplaced]

theorem text_toList (t : Token) : t.text.toList =
    t.kind.name.toList ++
      if t.value = t.kind.spelling then [] else '(' :: (t.value.toList ++ [')']) := by
  rw [text]
  split <;> simp

/-- The name in front of the first parenthesis is that of the kind, whatever the value is. -/
theorem takeWhile_text (t : Token) : t.text.toList.takeWhile (· != '(') = t.kind.name.toList := by
  have whole : t.kind.name.toList.takeWhile (· != '(') = t.kind.name.toList :=
    List.takeWhile_eq_self_iff.mpr fun c member => by simpa using Kind.ne_of_mem_name member
  rw [text_toList]
  split
  · rw [List.append_nil, whole]
  · rw [List.takeWhile_append, whole, if_pos rfl]
    simp

/-- The written form of a token tells its kind and its value. -/
theorem text_inj : t.text = u.text ↔ t.unplaced = u.unplaced := by
  rw [unplaced_inj]
  constructor
  · intro same
    have kinds : t.kind = u.kind := by
      rw [← Kind.name_inj, ← String.toList_inj, ← takeWhile_text, ← takeWhile_text, same]
    refine ⟨kinds, ?_⟩
    have written := congrArg String.toList same
    rw [text_toList, text_toList, kinds, List.append_cancel_left_eq] at written
    by_cases first : t.value = u.kind.spelling <;> by_cases second : u.value = u.kind.spelling
    · rw [first, second]
    · simp [first, second] at written
    · simp [first, second] at written
    · rw [if_neg first, if_neg second, List.cons.injEq, List.append_cancel_right_eq,
        String.toList_inj] at written
      exact written.2
  · rintro ⟨kinds, values⟩
    rw [text, text, kinds, values]

theorem map_text_inj {ts us : List Token} :
    ts.map (fun t => Value.text t.text) = us.map (fun t => Value.text t.text) ↔
      ts.map unplaced = us.map unplaced := by
  induction ts generalizing us with
  | nil => cases us <;> simp
  | cons t ts ih => cases us <;> simp [ih, text_inj]

end Token

theorem Container.name_inj {c d : Container} : c.name = d.name ↔ c = d := by
  cases c <;> cases d <;> decide

theorem Fixity.name_inj {f g : Fixity} : f.name = g.name ↔ f = g := by
  cases f <;> cases g <;> decide

namespace TypeTerm

mutual

theorem unplaced_unplaced : (t : TypeTerm) → t.unplaced.unplaced = t.unplaced
  | named .. => rfl
  | container _ _ _ elements => by
    simp only [unplaced, unplacedAll_unplacedAll elements]
    rfl

theorem unplacedAll_unplacedAll :
    (ts : List TypeTerm) → unplacedAll (unplacedAll ts) = unplacedAll ts
  | [] => rfl
  | t :: ts => by simp only [unplacedAll, unplaced_unplaced t, unplacedAll_unplacedAll ts]

end

mutual

/-- The external form of a type tells all of it but the places of its tokens. -/
theorem record_inj : {s t : TypeTerm} → (s.record = t.record ↔ s.unplaced = t.unplaced)
  | named .., named .. => by simp [record, unplaced, Token.text_inj]
  | container .., container .. => by
    simp [record, unplaced, Token.text_inj, Container.name_inj, recordAll_inj]
  | named .., container .. | container .., named .. => by simp [record, unplaced]

theorem recordAll_inj :
    {ss ts : List TypeTerm} → (recordAll ss = recordAll ts ↔ unplacedAll ss = unplacedAll ts)
  | [], [] => by simp
  | s :: ss, t :: ts => by simp [recordAll, unplacedAll, record_inj, recordAll_inj]
  | [], _ :: _ | _ :: _, [] => by simp [recordAll, unplacedAll]

end

end TypeTerm

namespace Field

variable {α : Type} (child : α → Value)

@[simp] theorem value_one (a : α) : (Field.one a).value child = child a := rfl

@[simp] theorem value_optional (a : Option α) :
    (Field.optional a).value child = (a.map child).getD .null := by
  cases a <;> rfl

@[simp] theorem value_many (as : List α) : (Field.many as).value child = .list (as.map child) := rfl

@[simp] theorem value_flag (b : Bool) : (Field.flag b).value child = .flag b := rfl

@[simp] theorem value_text (s : String) : (Field.text s).value child = .text s := rfl

@[simp] theorem value_pairs (ps : List (α × α)) : (Field.pairs ps).value child =
    .list (ps.map fun p => .record [("key", child p.1), ("value", child p.2)]) := rfl

@[simp] theorem value_tokens (ts : List Token) :
    (Field.tokens ts).value child = .list (ts.map fun t => .text t.text) := rfl

@[simp] theorem value_types (ts : List TypeTerm) :
    (Field.types ts).value child = .list (TypeTerm.recordAll ts) := rfl

theorem pairs_inj {ps qs : List (Value × Value)} :
    ps.map (fun p => Value.record [("key", p.1), ("value", p.2)]) =
      qs.map (fun p => Value.record [("key", p.1), ("value", p.2)]) ↔ ps = qs := by
  have apart : Function.Injective fun p : Value × Value =>
      Value.record [("key", p.1), ("value", p.2)] := by
    rintro ⟨k, v⟩ ⟨k', v'⟩ same
    simpa using same
  exact apart.list_map.eq_iff

end Field

namespace Shape

variable {α β : Type}

/-- The tags in the order of the constructors. -/
def tags : List String :=
  ["Block", "Assignment", "Declare", "NoOp", "Pass", "Continue", "Break", "Return", "Defer", "Var",
    "IntLiteral", "RealLiteral", "StringLiteral", "BooleanLiteral", "NullLiteral", "UnaryOp",
    "BinaryOp", "TernaryOp", "Index", "Slice", "Get", "Call", "Func", "Class", "Struct",
    "Interface", "Enum", "If", "IfBlock", "Loop", "Switch", "Case", "Try", "Catch", "ArrayList",
    "LinkedList", "Set", "ObjectMap", "ValueMap", "UndirectedGraph", "DirectedGraph", "Edge",
    "DirectedEdge", "ArrayListRange", "LinkedListRange"]

theorem getElem?_tags (s : Shape α) : tags[s.ctorIdx]? = some s.tag := by
  cases s <;> rfl

/-- A tag belongs to one constructor. -/
theorem ctorIdx_eq_of_tag_eq {s : Shape α} {t : Shape β} (same : s.tag = t.tag) :
    s.ctorIdx = t.ctorIdx := by
  have distinct : tags.Nodup := by decide
  obtain ⟨first, here⟩ := List.getElem?_eq_some_iff.mp s.getElem?_tags
  obtain ⟨second, there⟩ := List.getElem?_eq_some_iff.mp t.getElem?_tags
  exact (distinct.getElem_inj_iff).mp (here.trans (same.trans there.symm))

/-- The fields of the shape tell it from the other one, up to the places of its tokens. -/
def Told (s t : Shape Value) : Prop :=
  (∀ v ∈ s.children, v ≠ .null) → (∀ v ∈ t.children, v ≠ .null) →
    s.fields.map (fun f => (f.1, f.2.value id)) = t.fields.map (fun f => (f.1, f.2.value id)) →
    s.unplaced = t.unplaced

theorem told_of_ctorIdx_eq {s t : Shape Value} (same : s.ctorIdx = t.ctorIdx) : s.Told t := by
  cases s
  all_goals
    refine Shape.ctorElim (motive := Told _) _ t same ⟨?_⟩
    intros
    intro first second fields
    simp only [Shape.fields, List.map_cons, List.map_nil, List.cons.injEq, Prod.mk.injEq, true_and,
      and_true, Field.value_one, Field.value_optional, Field.value_many, Field.value_flag,
      Field.value_text, Field.value_pairs, Field.value_tokens, Field.value_types, id_eq,
      List.map_id, Option.map_id, Value.list.injEq, Value.flag.injEq, Value.text.injEq,
      Fixity.name_inj, Field.pairs_inj, Token.map_text_inj, TypeTerm.recordAll_inj] at fields
    simp only [children, unplaced] at first second ⊢ <;> grind [cases Option]

theorem record_unplaced (s : Shape Value) (k : Option Token) :
    s.unplaced.record id (k.map Token.unplaced) = s.record id k := by
  have token : (k.map Token.unplaced).elim Value.null (fun t => .text t.text) =
      k.elim .null fun t => .text t.text := by
    cases k <;> simp
  rw [record, record, token]
  cases s with
  | declare modifiers declared types =>
    have same : TypeTerm.recordAll (TypeTerm.unplacedAll types) = TypeTerm.recordAll types :=
      TypeTerm.recordAll_inj.mpr (TypeTerm.unplacedAll_unplacedAll types)
    simp [unplaced, tag, fields, same, Function.comp_def]
  | _ => rfl

theorem record_eq_map (child : α → Value) (s : Shape α) (k : Option Token) :
    s.record child k = (s.map child).record id k := by
  cases s <;> simp [record, map, tag, fields, Function.comp_def]

theorem record_congr {f g : α → Value} (s : Shape α) (k : Option Token)
    (same : ∀ a ∈ s.children, f a = g a) : s.record f k = s.record g k := by
  rw [record_eq_map f, record_eq_map g, map_congr s same]

/-- The external form of a node whose children are there tells its shape, with the external forms
of the children in its slots, and its token. -/
theorem record_inj {s t : Shape Value} {k m : Option Token} (first : ∀ v ∈ s.children, v ≠ .null)
    (second : ∀ v ∈ t.children, v ≠ .null) :
    s.record id k = t.record id m ↔
      s.unplaced = t.unplaced ∧ k.map Token.unplaced = m.map Token.unplaced := by
  constructor
  · intro same
    simp only [record, Value.record.injEq, List.cons.injEq, Prod.mk.injEq, true_and,
      Value.text.injEq] at same
    obtain ⟨tags, tokens, fields⟩ := same
    refine ⟨told_of_ctorIdx_eq (ctorIdx_eq_of_tag_eq tags) first second fields, ?_⟩
    cases k <;> cases m <;> simp_all [Token.text_inj]
  · rintro ⟨shapes, tokens⟩
    rw [← record_unplaced s, ← record_unplaced t, shapes, tokens]

end Shape

end ScriptSyntax
