import ScriptSyntax.Proofs.Scan.Buffered
import ScriptSyntax.Proofs.Scan.Prolonging

/-! Words and what is kept under them. A trie is a map on words in which the last insertion counts,
and its nodes are the prefixes of what was inserted. The scanner walks along the reserved words
while it reads, and what it gives is the reserved kind of the whole word, or else a name. -/
namespace ScriptSyntax

namespace Trie

variable {α : Type}

@[simp] theorem walk_nil (t : Trie α) : t.walk [] = some t := rfl

theorem walk_cons (t : Trie α) (c : Char) (word : List Char) :
    t.walk (c :: word) = (t.step c).bind (·.walk word) := by
  rw [walk, List.foldlM_cons]
  rfl

theorem isSome_walk_empty (word : List Char) :
    ((empty : Trie α).walk word).isSome = true ↔ word = [] := by
  cases word with
  | nil => simp
  | cons c word => simp [walk_cons, step, empty]

/-- An insertion makes nodes of the prefixes of its word and leaves the nodes there were. -/
theorem isSome_walk_insert (t : Trie α) (entry : List Char) (a : α) (word : List Char) :
    ((t.insert entry a).walk word).isSome = true ↔
      (t.walk word).isSome = true ∨ word <+: entry := by
  induction entry generalizing t word with
  | nil =>
    cases word with
    | nil => simp
    | cons d word => simp [walk_cons, step_insert_nil]
  | cons c entry ih =>
    cases word with
    | nil => simp
    | cons d word =>
      rw [walk_cons, walk_cons, step_insert_cons, List.cons_prefix_cons]
      by_cases same : d = c
      · subst same
        cases below : t.step d with
        | some node => simp [ih]
        | none =>
          -- Below a new branch there is the root alone, which is a prefix of anything.
          have root : word = [] → word <+: entry := by
            rintro rfl
            exact List.nil_prefix
          simpa [ih, isSome_walk_empty] using root
      · simp [same]

theorem ofList_append_singleton (entries : List (List Char × α)) (entry : List Char × α) :
    ofList (entries ++ [entry]) = (ofList entries).insert entry.1 entry.2 := by
  simp [ofList]

/-- The nodes below the root are the prefixes of the inserted words. -/
theorem isSome_walk_ofList (entries : List (List Char × α)) (word : List Char) :
    ((ofList entries).walk word).isSome = true ↔ word = [] ∨ ∃ e ∈ entries, word <+: e.1 := by
  induction entries using List.reverseRecOn with
  | nil => simpa [ofList] using isSome_walk_empty word
  | append_singleton rest entry ih =>
    rw [ofList_append_singleton, isSome_walk_insert, ih]
    simp [or_and_right, exists_or, or_assoc]

/-- What is found is what was inserted under the word last. -/
theorem find?_ofList_eq_some {entries : List (List Char × α)} {word : List Char} {a : α} :
    (ofList entries).find? word = some a ↔
      ∃ before after, entries = before ++ (word, a) :: after ∧ ∀ e ∈ after, e.1 ≠ word := by
  rw [find?_ofList, Option.map_eq_some_iff]
  constructor
  · rintro ⟨⟨w, a⟩, first, rfl⟩
    obtain ⟨here, later, earlier, split, passed⟩ := List.find?_eq_some_iff_append.mp first
    obtain rfl : w = word := of_decide_eq_true here
    refine ⟨earlier.reverse, later.reverse, ?_, by simpa using passed⟩
    rw [← List.reverse_reverse entries, split]
    simp
  · rintro ⟨before, after, rfl, passed⟩
    refine ⟨(word, a), List.find?_eq_some_iff_append.mpr ⟨by simp, after.reverse, before.reverse,
      by simp, by simpa using passed⟩, rfl⟩

theorem find?_ofList_eq_none {entries : List (List Char × α)} {word : List Char} :
    (ofList entries).find? word = none ↔ ∀ e ∈ entries, e.1 ≠ word := by
  rw [find?_ofList, Option.map_eq_none_iff, List.find?_eq_none]
  simp

end Trie

namespace Scanner

/-- A word stands next: a text is a gap, letters and digits as far as they go, and a rest. -/
structure Worded (text gap word rest : List Char) : Prop where
  split : text = gap ++ (word ++ rest)
  gap : Gap false gap
  starts : ∃ c ∈ word.head?, startsWord c = true
  continues : ∀ c ∈ word, continuesWord c = true
  stops : ∀ c ∈ rest.head?, continuesWord c = false

variable {s s' : Scanner} {t : Token} {text gap word rest cs : List Char} {previous : Option Kind}

theorem Worded.takeWhile_eq (stands : Worded text gap word rest) :
    (word ++ rest).takeWhile continuesWord = word := by
  rw [List.takeWhile_append_of_pos stands.continues]
  cases rest with
  | nil => simp
  | cons d rest => simp [stands.stops d (by simp)]

/-- A word is read whole, as the kind that is kept for it. -/
theorem Worded.read_eq (stands : Worded text gap word rest) (previous : Option Kind) :
    read previous (word ++ rest) = match Kind.reserved.find? word with
      | some kind => .token kind kind.spelling word rest
      | none => .token .var (String.ofList word) word rest := by
  obtain ⟨c, first, starts⟩ := stands.starts
  have taken := stands.takeWhile_eq
  obtain ⟨tail, rfl⟩ := List.head?_eq_some_iff.mp first
  rw [List.cons_append, read_word starts, ← List.cons_append]
  exact Buffer.readWord_eq rfl taken

theorem Worded.inked (stands : Worded text gap word rest) : Inked (word ++ rest) := by
  obtain ⟨c, first, starts⟩ := stands.starts
  obtain ⟨tail, rfl⟩ := List.head?_eq_some_iff.mp first
  refine Inked.of_head (isBlank_of_startsWord starts) ?_
  rintro rfl
  exact absurd starts (by decide)

/-- The token that is made of the word and of nothing after it. -/
theorem Worded.next_eq (stands : Worded s.rest gap word rest) {kind : Kind} {value : String}
    (kept : read s.previous (word ++ rest) = .token kind value word rest) :
    s.next =
      (.ok ⟨kind, value, s.point.advance gap, (s.point.advance gap).advance word⟩,
        ⟨s.file, rest, (s.point.advance gap).advance word, some kind⟩) := by
  obtain ⟨c, first, -⟩ := stands.starts
  obtain ⟨tail, rfl⟩ := List.head?_eq_some_iff.mp first
  have next := @next_of_read _ _ s
    ⟨kind, value, s.point.advance gap, (s.point.advance gap).advance (c :: tail)⟩
    stands.split stands.gap stands.inked (by rw [kept]; rfl) rfl (by rw [kept]; rfl)
  rw [next, kept]
  rfl

/-- A name or a reserved word is read off a word. -/
theorem startsWord_of_read {kind : Kind} {value : String}
    (ok : (read previous cs).outcome = .ok (kind, value))
    (wordy : kind.isReserved = true ∨ kind = .var) : ∃ c ∈ cs.head?, startsWord c = true := by
  cases cs with
  | nil =>
    cases ok
    rcases wordy with wordy | wordy <;> contradiction
  | cons c rest =>
    refine ⟨c, rfl, ?_⟩
    by_contra sign
    simp only [read, if_neg sign] at ok
    split at ok
    · simp only [readString] at ok
      split at ok <;> cases ok
      rcases wordy with wordy | wordy <;> contradiction
    · split at ok
      · simp only [readNumber] at ok
        split at ok <;> cases ok <;> rcases wordy with wordy | wordy <;> contradiction
      · split at ok
        · next kind found =>
          cases ok
          have symbol := (symbolAt?_spec found).1
          rcases wordy with wordy | rfl
          · simp [Kind.isSymbol, wordy] at symbol
          · contradiction
        · contradiction

/-- Where a name or a reserved word is given, a word stands in the text. -/
theorem Worded.of_next (given : s.next = (.ok t, s'))
    (wordy : t.kind.isReserved = true ∨ t.kind = .var) :
    ∃ gap word rest, Worded s.rest gap word rest := by
  obtain ⟨gap, text, split, skipped, -, ok, -⟩ := next_reads given
  obtain ⟨c, first, starts⟩ := startsWord_of_read ok wordy
  obtain ⟨tail, rfl⟩ := List.head?_eq_some_iff.mp first
  let word := (c :: tail).takeWhile continuesWord
  have begins : word.head? = some c := by
    simp [word, List.takeWhile_cons_of_pos (continuesWord_of_startsWord starts)]
  refine ⟨gap, word, (c :: tail).dropWhile continuesWord, ?_, skipped, ⟨c, begins, starts⟩,
    fun d => List.mem_takeWhile_imp, fun d stops => ?_⟩
  · rw [List.takeWhile_append_dropWhile, split]
  · have other := List.head?_dropWhile_not continuesWord (c :: tail)
    rwa [stops] at other

end Scanner

/-- The token is what is made of a word: the reserved kind that is spelled so, or else a name. -/
structure Token.Recognises (t : Token) (word : List Char) : Prop where
  value : t.value.toList = word
  kind : t.kind.isReserved = true ∧ t.kind.spelling.toList = word ∨
    t.kind = .var ∧ ∀ k : Kind, k.isReserved = true → k.spelling.toList ≠ word

variable {b b' : Buffer} {t : Token} {gap word rest : List Char}

/-- A walk along the reserved words recognises the word that stands next, and takes no more. -/
theorem Buffer.next_of_worded (stands : Scanner.Worded b.text gap word rest) :
    ∃ t b', b.next = (.ok t, b') ∧ t.Recognises word ∧ b'.text = rest ∧
      t.span = ⟨b.point.advance gap, (b.point.advance gap).advance word⟩ := by
  have same := b.next_scanner.1
  have kept := stands.read_eq b.previous
  cases found : Kind.reserved.find? word with
  | some kind =>
    rw [found] at kept
    rw [Scanner.Worded.next_eq (s := b.scanner) stands kept] at same
    obtain ⟨given, left⟩ := Prod.mk.inj same
    have ⟨reserved, spelled⟩ := Kind.find?_reserved_eq_some.mp found
    exact ⟨_, b.next.2, Prod.ext given rfl, ⟨spelled, .inl ⟨reserved, spelled⟩⟩,
      congrArg Scanner.rest left, rfl⟩
  | none =>
    rw [found] at kept
    rw [Scanner.Worded.next_eq (s := b.scanner) stands kept] at same
    obtain ⟨given, left⟩ := Prod.mk.inj same
    have free (k : Kind) (reserved : k.isReserved = true) : k.spelling.toList ≠ word := by
      intro spelled
      rw [Kind.find?_reserved_eq_some.mpr ⟨reserved, spelled⟩] at found
      contradiction
    exact ⟨_, b.next.2, Prod.ext given rfl, ⟨String.toList_ofList, .inr ⟨rfl, free⟩⟩,
      congrArg Scanner.rest left, rfl⟩

/-- A trie keeps for each word what was inserted under it last, and its nodes are the prefixes of
the inserted words. A word that stands next in any text gives the reserved kind with its spelling,
or a name where there is none, and nothing else gives either. -/
theorem words_kept_and_recognised :
    (∀ (α : Type) (entries : List (List Char × α)) (word : List Char),
      (∀ a, (Trie.ofList entries).find? word = some a ↔
        ∃ before after, entries = before ++ (word, a) :: after ∧ ∀ e ∈ after, e.1 ≠ word) ∧
      ((Trie.ofList entries).find? word = none ↔ ∀ e ∈ entries, e.1 ≠ word) ∧
      (((Trie.ofList entries).walk word).isSome = true ↔
        word = [] ∨ ∃ e ∈ entries, word <+: e.1) ∧
      ∀ node, (Trie.ofList entries).walk word = some node →
        node.value = (Trie.ofList entries).find? word) ∧
    (∀ (b : Buffer) (gap word rest : List Char), Scanner.Worded b.text gap word rest →
      ∃ t b', b.next = (.ok t, b') ∧ t.Recognises word ∧ b'.text = rest ∧
        t.span = ⟨b.point.advance gap, (b.point.advance gap).advance word⟩) ∧
    ∀ (b b' : Buffer) (t : Token), b.next = (.ok t, b') →
      t.kind.isReserved = true ∨ t.kind = .var →
      ∃ gap word rest, Scanner.Worded b.text gap word rest := by
  refine ⟨fun α entries word => ⟨fun a => Trie.find?_ofList_eq_some, Trie.find?_ofList_eq_none,
    Trie.isSome_walk_ofList entries word, fun node reached => ?_⟩,
    fun b gap word rest => Buffer.next_of_worded, fun b b' t given wordy => ?_⟩
  · rw [Trie.find?, reached, Option.bind_some]
  · have same := b.next_scanner.1
    rw [given] at same
    exact Scanner.Worded.of_next (s := b.scanner) same.symm wordy

/-- The reserved word at the begin of a longer word is not recognised. -/
theorem words_kept_and_recognised_iffy :
    (∃ node, (Trie.ofList [("if".toList, 1), ("if".toList, 2)]).walk "if".toList = some node ∧
      node.value = some 2) ∧
    Scanner.Worded "// if\niffy = 1".toList "// if\n".toList "iffy".toList " = 1".toList ∧
    ∃ t b', (Buffer.ofText "// if\niffy = 1" none).next = (.ok t, b') ∧
      t.Recognises "iffy".toList ∧ t.kind = .var ∧
      ∃ gap word rest, Scanner.Worded "// if\niffy = 1".toList gap word rest := by
  obtain ⟨kept, recognised, worded⟩ := words_kept_and_recognised
  have stands :
      Scanner.Worded "// if\niffy = 1".toList "// if\n".toList "iffy".toList " = 1".toList :=
    ⟨by decide, .line " if".toList (by decide) .nil, ⟨'i', by decide⟩,
      List.all_eq_true.mp (by decide), fun c first => by cases first; decide⟩
  obtain ⟨found, -, -, carried⟩ := kept Nat [("if".toList, 1), ("if".toList, 2)] "if".toList
  obtain ⟨t, b', given, is, -⟩ := recognised (.ofText "// if\niffy = 1" none) _ _ _ stands
  have free : t.kind = .var := by
    rcases is.kind with ⟨reserved, spelled⟩ | ⟨name, -⟩
    · have none := Kind.of_all (P := Kind.isReserved)
        (Q := fun k => k.spelling.toList ≠ "iffy".toList) (by decide +kernel) reserved
      exact absurd spelled (of_decide_eq_true none)
    · exact name
  refine ⟨⟨_, rfl, ?_⟩, stands, t, b', given, is, free, worded _ _ _ given (.inr free)⟩
  rw [carried _ rfl]
  exact (found 2).mpr ⟨[("if".toList, 1)], [], rfl, by simp⟩

end ScriptSyntax
