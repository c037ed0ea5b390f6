import Mathlib.Data.List.Induction
import Mathlib.Data.List.Nodup
import ScriptSyntax.Scanner.Spelling

/-! The catalog of kinds and what is found in it by spelling. A trie gives for a word what was
inserted last under it. The spellings of the reserved kinds differ from each other, and so do those
of the symbols. -/
namespace ScriptSyntax

namespace Trie

variable {α : Type}

theorem find?_nil (t : Trie α) : t.find? [] = t.value := rfl

theorem find?_cons (t : Trie α) (c : Char) (word : List Char) :
    t.find? (c :: word) = (t.step c).bind (·.find? word) := by
  simp only [find?, walk, List.foldlM_cons]
  exact Option.bind_assoc ..

@[simp] theorem find?_empty (word : List Char) : (empty : Trie α).find? word = none := by
  cases word with
  | nil => rfl
  | cons c word =>
    rw [find?_cons]
    rfl

theorem value_insert_cons (t : Trie α) (c : Char) (word : List Char) (a : α) :
    (t.insert (c :: word) a).value = t.value := by
  cases t
  simp [insert, value]

theorem step_insert_nil (t : Trie α) (a : α) (c : Char) : (t.insert [] a).step c = t.step c := by
  cases t
  simp [insert, step]

theorem step_insert_cons (t : Trie α) (c : Char) (word : List Char) (a : α) (d : Char) :
    (t.insert (c :: word) a).step d =
      if d = c then some (((t.step c).getD empty).insert word a) else t.step d := by
  obtain ⟨value, branches⟩ := t
  by_cases same : d = c
  · simp [insert, step, same]
  · have others : (branches.filter fun b => b.1 != c).lookup d = branches.lookup d := by
      induction branches with
      | nil => rfl
      | cons b rest ih =>
        obtain ⟨e, u⟩ := b
        by_cases here : e = c
        · subst here
          simp [List.lookup_cons, ih, beq_eq_false_iff_ne.mpr same]
        · simp [List.lookup_cons, here, ih]
    simp [insert, step, List.lookup_cons, same, others, beq_eq_false_iff_ne.mpr same]

theorem find?_insert (t : Trie α) (word : List Char) (a : α) (other : List Char) :
    (t.insert word a).find? other = if other = word then some a else t.find? other := by
  induction word generalizing t other with
  | nil =>
    cases other with
    | nil =>
      cases t
      rfl
    | cons d other => simp [find?_cons, step_insert_nil]
  | cons c word ih =>
    cases other with
    | nil => simp [find?_nil, value_insert_cons]
    | cons d other =>
      rw [find?_cons, find?_cons, step_insert_cons]
      by_cases same : d = c
      · subst same
        cases below : t.step d <;> simp [ih]
      · simp [same]

/-- A word is found under the last of the entries for it. -/
theorem find?_ofList (entries : List (List Char × α)) (word : List Char) :
    (ofList entries).find? word = (entries.reverse.find? (·.1 = word)).map (·.2) := by
  induction entries using List.reverseRecOn with
  | nil => simp [ofList]
  | append_singleton rest entry ih =>
    have last : ofList (rest ++ [entry]) = (ofList rest).insert entry.1 entry.2 := by
      simp [ofList]
    rw [last, find?_insert, ih, List.reverse_append, List.reverse_singleton,
      List.singleton_append, List.find?_cons]
    by_cases same : entry.1 = word
    · simp [same]
    · simp [same, Ne.symm same]

end Trie

namespace Kind

/-- The kinds are listed in their order. -/
theorem getElem?_all (k : Kind) : all[k.ctorIdx]? = some k := by
  cases k <;> rfl

theorem mem_all (k : Kind) : k ∈ all :=
  List.mem_of_getElem? k.getElem?_all

/-- What the catalog shows of all kinds with a property. -/
theorem of_all {P Q : Kind → Bool} {k : Kind} (checked : all.all (fun k => !P k || Q k) = true)
    (holds : P k = true) : Q k = true := by
  have check := List.all_eq_true.mp checked k k.mem_all
  simpa [holds] using check

theorem eq_of_reserved {k m : Kind} (first : k.isReserved = true) (second : m.isReserved = true)
    (same : k.spelling = m.spelling) : k = m := by
  have distinct : ((all.filter isReserved).map spelling).Nodup := by decide
  exact List.inj_on_of_nodup_map distinct (by simp [mem_all, first]) (by simp [mem_all, second])
    same

theorem find?_reserved_eq_some {word : List Char} {k : Kind} :
    reserved.find? word = some k ↔ k.isReserved = true ∧ k.spelling.toList = word := by
  have entry_iff (e : List Char × Kind) :
      e ∈ ((all.filter isReserved).map fun k => (k.spelling.toList, k)).reverse ↔
        e.2.isReserved = true ∧ e.2.spelling.toList = e.1 := by
    obtain ⟨w, m⟩ := e
    simp [mem_all, and_comm]
  rw [reserved, Trie.find?_ofList]
  constructor
  · intro found
    obtain ⟨e, first, rfl⟩ := Option.map_eq_some_iff.mp found
    obtain ⟨held, written⟩ := (entry_iff e).mp (List.mem_of_find?_eq_some first)
    have under : e.1 = word := by simpa using List.find?_some first
    exact ⟨held, written.trans under⟩
  · rintro ⟨held, rfl⟩
    rw [Option.map_eq_some_iff]
    cases found : List.find? (fun e => decide (e.1 = k.spelling.toList))
        ((all.filter isReserved).map fun k => (k.spelling.toList, k)).reverse with
    | none =>
      have absent := List.find?_eq_none.mp found (k.spelling.toList, k)
        ((entry_iff _).mpr ⟨held, rfl⟩)
      simp at absent
    | some e =>
      obtain ⟨also, written⟩ := (entry_iff e).mp (List.mem_of_find?_eq_some found)
      have under : e.1 = k.spelling.toList := by simpa using List.find?_some found
      exact ⟨e, rfl, eq_of_reserved also held (String.toList_inj.mp (written.trans under))⟩

/-- A word is of the reserved kind with its spelling, and a name where there is none. -/
theorem ofWord_cases (word : List Char) :
    (ofWord word).isReserved = true ∧ (ofWord word).spelling.toList = word ∨
      ofWord word = var ∧ ∀ k : Kind, k.isReserved = true → k.spelling.toList ≠ word := by
  cases found : reserved.find? word with
  | none =>
    refine .inr ⟨by rw [ofWord, found, Option.getD_none], fun k held same => ?_⟩
    rw [find?_reserved_eq_some.mpr ⟨held, same⟩] at found
    contradiction
  | some k =>
    rw [ofWord, found, Option.getD_some]
    exact .inl (find?_reserved_eq_some.mp found)

theorem ofWord_spelling {k : Kind} (held : k.isReserved = true) :
    ofWord k.spelling.toList = k := by
  rw [ofWord, find?_reserved_eq_some.mpr ⟨held, rfl⟩, Option.getD_some]

theorem ofWord_of_free {word : List Char}
    (free : ∀ k : Kind, k.isReserved = true → k.spelling.toList ≠ word) : ofWord word = var := by
  rcases ofWord_cases word with ⟨held, same⟩ | ⟨name, -⟩
  · exact absurd same (free _ held)
  · exact name

end Kind

namespace Scanner

/-- What is listed under a character are the symbols that begin with it. -/
theorem of_mem_branches {c : Char} {branch : String × Kind} (listed : branch ∈ branches c) :
    branch.2.isSymbol = true ∧ branch.2.spelling.toList = c :: branch.1.toList := by
  have checked : ∀ b ∈ branches c,
      b.2.isSymbol = true ∧ b.2.spelling.toList = c :: b.1.toList := by
    unfold branches
    split
    case h_28 => exact List.forall_mem_nil _
    all_goals decide
  exact checked branch listed

/-- Every symbol is listed under the character that it begins with. -/
theorem mem_branches {c : Char} {after : List Char} {k : Kind} (symbol : k.isSymbol = true)
    (written : k.spelling.toList = c :: after) : (String.ofList after, k) ∈ branches c := by
  have listed := Kind.of_all (P := Kind.isSymbol)
    (Q := fun k => k.spelling.toList.head?.any fun c => (branches c).any fun b => b.2 = k)
    (by decide) symbol
  rw [written, List.head?_cons, Option.any_some, List.any_eq_true] at listed
  obtain ⟨⟨suffix, m⟩, member, same⟩ := listed
  obtain rfl : m = k := of_decide_eq_true same
  have spelled := (of_mem_branches member).2
  rw [written, List.cons_inj_right] at spelled
  rwa [spelled, String.ofList_toList]

/-- Where two of the symbols under a character begin alike, the longer one comes first. -/
theorem branches_pairwise (c : Char) :
    (branches c).Pairwise fun a b => ¬ a.1.toList <+: b.1.toList := by
  unfold branches
  split <;> decide

/-- No two symbols are spelled alike: under their first character one of them would come after the
other. -/
theorem eq_of_spelling_eq {k m : Kind} (first : k.isSymbol = true) (second : m.isSymbol = true)
    (same : k.spelling = m.spelling) : k = m := by
  cases written : k.spelling.toList with
  | nil =>
    rw [Kind.isSymbol, String.toList_eq_nil_iff.mp written] at first
    contradiction
  | cons c after =>
    have distinct : ((branches c).map (·.1)).Nodup := by
      refine List.pairwise_map.mpr ((branches_pairwise c).imp fun apart alike => apart ?_)
      exact ⟨[], by rw [List.append_nil, alike]⟩
    have listed := List.inj_on_of_nodup_map distinct (mem_branches first written)
      (mem_branches second (same ▸ written)) rfl
    exact congrArg Prod.snd listed

theorem symbolAt?_spec {cs : List Char} {k : Kind} (found : symbolAt? cs = some k) :
    k.isSymbol = true ∧ k.spelling.toList <+: cs ∧
      ∀ m : Kind, m.isSymbol = true → m.spelling.toList <+: cs →
        m.spelling.toList.length ≤ k.spelling.toList.length := by
  cases cs with
  | nil => contradiction
  | cons c rest =>
    obtain ⟨⟨after, k⟩, first, rfl⟩ := Option.map_eq_some_iff.mp found
    have order := branches_pairwise c
    obtain ⟨goes, earlier, later, split, passed⟩ := List.find?_eq_some_iff_append.mp first
    obtain ⟨symbol, written⟩ := of_mem_branches (List.mem_of_find?_eq_some first)
    have begins : after.toList <+: rest := List.isPrefixOf_iff_prefix.mp goes
    dsimp only at written ⊢
    rw [split, List.pairwise_append, List.pairwise_cons] at order
    refine ⟨symbol, written ▸ List.cons_prefix_cons.mpr ⟨rfl, begins⟩, fun m symbol' begins' => ?_⟩
    cases spelled : m.spelling.toList with
    | nil => exact Nat.zero_le _
    | cons d suffix =>
      rw [spelled, List.cons_prefix_cons] at begins'
      obtain ⟨rfl, begins'⟩ := begins'
      have listed := mem_branches symbol' spelled
      rw [split, List.mem_append, List.mem_cons] at listed
      rw [written, List.length_cons, List.length_cons]
      rcases listed with before | here | behind
      · have passes := passed _ before
        rw [String.toList_ofList, List.isPrefixOf_iff_prefix.mpr begins'] at passes
        contradiction
      · simp [← (Prod.mk.inj here).1]
      · have apart := order.2.1.1 _ behind
        rw [String.toList_ofList] at apart
        have inside := (List.prefix_or_prefix_of_prefix begins begins').resolve_left apart
        exact Nat.succ_le_succ inside.length_le

theorem symbolAt?_isSome {cs : List Char} {k : Kind} (symbol : k.isSymbol = true)
    (begins : k.spelling.toList <+: cs) : (symbolAt? cs).isSome = true := by
  cases spelled : k.spelling.toList with
  | nil =>
    have written := symbol
    rw [Kind.isSymbol, String.toList_eq_nil_iff.mp spelled] at written
    contradiction
  | cons c after =>
    rw [spelled] at begins
    obtain ⟨more, rfl⟩ := begins
    rw [List.cons_append, symbolAt?, Option.isSome_map, List.find?_isSome]
    exact ⟨_, mem_branches symbol spelled, by simp⟩

/-- A text is read as the longest of the symbols that it begins with. -/
theorem symbolAt?_eq_some_iff {cs : List Char} {k : Kind} : symbolAt? cs = some k ↔
    k.isSymbol = true ∧ k.spelling.toList <+: cs ∧
      ∀ m : Kind, m.isSymbol = true → m.spelling.toList <+: cs →
        m.spelling.toList.length ≤ k.spelling.toList.length := by
  constructor
  · exact symbolAt?_spec
  · intro ⟨symbol, begins, longest⟩
    obtain ⟨m, found⟩ := Option.isSome_iff_exists.mp (symbolAt?_isSome symbol begins)
    obtain ⟨symbol', begins', longest'⟩ := symbolAt?_spec found
    have inside := List.prefix_of_prefix_length_le begins' begins (longest m symbol' begins')
    have same := inside.eq_of_length_le (longest' k symbol begins)
    rw [found, eq_of_spelling_eq symbol' symbol (String.toList_inj.mp same)]

end Scanner
end ScriptSyntax
