import ScriptSyntax.Grammar.Statement
import ScriptSyntax.Proofs.Progress.Grammar
import ScriptSyntax.Proofs.Progress.Taking

/-! Lists of types are read exactly: what they are written with gives them, and whatever gives them
is what they are written with. -/
namespace ScriptSyntax

open Grammar Parse Cursor

/-- The tokens write the types down, with a comma between one and the next. Each is a single token,
or the types of its elements between the marks of a container; a star before it makes it a
pointer. -/
inductive Spells : List TypeTerm → List Token → Prop where
  | named {star : Option Token} {token : Token} (pointer : ∀ s ∈ star, s.kind = .multiply)
      (names : token.kind = .var ∨ token.kind.isType = true ∧ token.kind.isContainer = false) :
      Spells [.named token star.isSome] (star.toList ++ [token])
  | shorthand {star : Option Token} {token : Token} {container : Container}
      (pointer : ∀ s ∈ star, s.kind = .multiply) (short : token.kind = container.shorthand) :
      Spells [.container token star.isSome container []] (star.toList ++ [token])
  | container {star : Option Token} {token close : Token} {container : Container}
      {elements : List TypeTerm} {words : List Token} (pointer : ∀ s ∈ star, s.kind = .multiply)
      (opens : token.kind = container.opener) (inside : Spells elements words)
      (closes : close.kind = container.closer) :
      Spells [.container token star.isSome container elements]
        (star.toList ++ token :: (words ++ [close]))
  | more {first : TypeTerm} {rest : List TypeTerm} {comma : Token} {ws us : List Token}
      (one : Spells [first] ws) (separates : comma.kind = .comma) (others : Spells rest us) :
      Spells (first :: rest) (ws ++ comma :: us)

namespace Container

theorem ofOpener?_eq_some {k : Kind} {container : Container} :
    ofOpener? k = some container ↔ k = container.opener := by
  refine ⟨fun found => ?_, ?_⟩
  · have opens := List.find?_some found
    exact (of_decide_eq_true opens).symm
  · rintro rfl
    cases container <;> decide

theorem ofShorthand?_eq_some {k : Kind} {container : Container} :
    ofShorthand? k = some container ↔ k = container.shorthand := by
  refine ⟨fun found => ?_, ?_⟩
  · have stands := List.find?_some found
    exact (of_decide_eq_true stands).symm
  · rintro rfl
    cases container <;> decide

theorem ofOpener?_shorthand (container : Container) : ofOpener? container.shorthand = none := by
  cases container <;> decide

theorem opener_ne_multiply (container : Container) : container.opener ≠ .multiply := by
  cases container <;> decide

theorem shorthand_ne_multiply (container : Container) : container.shorthand ≠ .multiply := by
  cases container <;> decide

theorem closer_ne_comma (container : Container) : container.closer ≠ .comma := by
  cases container <;> decide

end Container

namespace Grammar

theorem namesType_iff {k : Kind} :
    namesType k = true ↔ k = .var ∨ k.isType = true ∧ k.isContainer = false := by
  simp [namesType, or_comm]

/-- A kind that is a type by itself begins no container. -/
theorem plain_of_namesType {k : Kind} (names : namesType k = true) :
    k ≠ .multiply ∧ Container.ofOpener? k = none ∧ Container.ofShorthand? k = none := by
  cases k <;> revert names <;> decide

end Grammar

variable {types : List TypeTerm} {words us : List Token} {type : TypeTerm} {u close : Token}
  {depth : Nat}

theorem Spells.ne_eof (spells : Spells types words) : ∀ t ∈ words, t.kind ≠ .eof := by
  have marked {star : Option Token} (pointer : ∀ s ∈ star, s.kind = .multiply) :
      ∀ t ∈ star.toList, t.kind ≠ .eof := by
    intro t member
    simp [pointer t (Option.mem_toList.mp member)]
  induction spells with
  | named pointer names =>
    refine List.forall_mem_append.mpr ⟨marked pointer, ?_⟩
    rw [List.forall_mem_singleton]
    intro eof
    rw [eof] at names
    contradiction
  | shorthand pointer short =>
    refine List.forall_mem_append.mpr ⟨marked pointer, ?_⟩
    rw [List.forall_mem_singleton, short]
    exact Container.ne_eof_of_ofShorthand? (Container.ofShorthand?_eq_some.mpr rfl)
  | container pointer opens inside closes ih =>
    refine List.forall_mem_append.mpr ⟨marked pointer, List.forall_mem_cons.mpr ⟨?_, ?_⟩⟩
    · rw [opens]
      exact Container.ne_eof_of_ofOpener? (Container.ofOpener?_eq_some.mpr rfl)
    · refine List.forall_mem_append.mpr ⟨ih, ?_⟩
      rw [List.forall_mem_singleton, closes]
      exact Container.closer_ne_eof _
  | more one separates others first rest =>
    refine List.forall_mem_append.mpr ⟨first, List.forall_mem_cons.mpr ⟨?_, rest⟩⟩
    simp [separates]

section Complete

/-- A single type is read up to what follows it, and a list of them up to what is no comma. -/
structure Readable (types : List TypeTerm) (words : List Token) : Prop where
  nonempty : types ≠ []
  pos : 0 < words.length
  one : ∀ type, types = [type] → ∀ depth u us, 2 * words.length ≤ depth + 1 →
    (call .typeTerm).Reads depth type words (u :: us)
  all : ∀ depth u us, 2 * words.length ≤ depth → u.kind ≠ .comma →
    (call .typeTerms).Reads depth types words (u :: us)

theorem Readable.typesUntil (readable : Readable types words) (deep : 2 * words.length ≤ depth)
    (apart : close.kind ≠ .comma) :
    (typesUntil close.kind).Reads depth types words (close :: us) := by
  refine (readable.all depth close us deep apart).last (reads_isAt rfl ?_)
  simp only [decide_true, if_true]
  exact reads_pure

/-- What reads a type reads the list of it alone. -/
theorem Readable.single (pos : 0 < words.length)
    (reads : ∀ depth u us, 2 * words.length ≤ depth + 2 →
      typeTerm.Reads depth type words (u :: us)) : Readable [type] words := by
  have one (depth : Nat) (u : Token) (us : List Token) (deep : 2 * words.length ≤ depth + 1) :
      (call .typeTerm).Reads depth type words (u :: us) := by
    obtain ⟨depth, rfl⟩ := Nat.exists_eq_add_of_le' (show 1 ≤ depth by omega)
    exact reads_call (reads depth u us (by omega))
  refine ⟨by simp, pos, ?_, fun depth u us deep apart => ?_⟩
  · rintro _ ⟨⟩
    exact one
  · obtain ⟨depth, rfl⟩ := Nat.exists_eq_add_of_le' (show 1 ≤ depth by omega)
    refine reads_call ((one depth u us (by omega)).last ?_)
    exact (reads_accept (o := none) nofun (by simpa using apart) (by simp)).last reads_pure

/-- An optional star may stand before what is no star itself. -/
theorem reads_star {star : Option Token} {token : Token} (pointer : ∀ s ∈ star, s.kind = .multiply)
    (other : token.kind ≠ .multiply) :
    (accept .multiply).Reads depth star.isSome star.toList (token :: us) :=
  reads_accept pointer (by simp [other]) (by simp)

theorem readable_named {star : Option Token} {token : Token}
    (pointer : ∀ s ∈ star, s.kind = .multiply) (names : namesType token.kind = true) :
    Readable [.named token star.isSome] (star.toList ++ [token]) := by
  obtain ⟨other, opens, short⟩ := plain_of_namesType names
  refine .single (by simp) fun depth u us deep => ?_
  refine (reads_star pointer other).bind (reads_current rfl ?_)
  simp only [opens, short, names, if_true]
  exact (reads_shift (by simp)).last reads_pure

theorem readable_shorthand {star : Option Token} {token : Token} {container : Container}
    (pointer : ∀ s ∈ star, s.kind = .multiply) (short : token.kind = container.shorthand) :
    Readable [.container token star.isSome container []] (star.toList ++ [token]) := by
  have other : token.kind ≠ .multiply := short ▸ container.shorthand_ne_multiply
  have opens : Container.ofOpener? token.kind = none := short ▸ container.ofOpener?_shorthand
  refine .single (by simp) fun depth u us deep => ?_
  refine (reads_star pointer other).bind (reads_current rfl ?_)
  simp only [opens, Container.ofShorthand?_eq_some.mpr short]
  exact (reads_shift (by simp)).last reads_pure

theorem Readable.container {star : Option Token} {token close : Token} {container : Container}
    (elements : Readable types words) (pointer : ∀ s ∈ star, s.kind = .multiply)
    (opens : token.kind = container.opener) (closes : close.kind = container.closer) :
    Readable [.container token star.isSome container types]
      (star.toList ++ token :: (words ++ [close])) := by
  have other : token.kind ≠ .multiply := opens ▸ container.opener_ne_multiply
  have inside {depth : Nat} {us : List Token} (deep : 2 * words.length ≤ depth) :
      (Grammar.typesUntil container.closer).Reads depth types words (close :: us) :=
    closes ▸ elements.typesUntil deep (closes ▸ container.closer_ne_comma)
  refine .single (by simp only [List.length_append, List.length_cons]; omega)
    fun depth u us deep => ?_
  simp only [List.length_append, List.length_cons, List.length_nil] at deep
  refine (reads_star pointer other).bind (reads_current rfl ?_)
  simp only [Container.ofOpener?_eq_some.mpr opens]
  refine reads_cons (by simp) ((inside (by omega)).bind ?_)
  exact (reads_expect closes (by simp)).last reads_pure

theorem Readable.more {comma : Token} (first : Readable [type] words)
    (separates : comma.kind = .comma) (others : Readable types us) :
    Readable (type :: types) (words ++ comma :: us) := by
  have pos := first.pos
  refine ⟨by simp, by simp only [List.length_append]; omega, ?_, fun depth u vs deep apart => ?_⟩
  · rintro _ ⟨⟩
    exact absurd rfl others.nonempty
  · simp only [List.length_append, List.length_cons] at deep
    obtain ⟨depth, rfl⟩ := Nat.exists_eq_add_of_le' (show 1 ≤ depth by omega)
    refine reads_call ((first.one type rfl depth comma (us ++ u :: vs) (by omega)).bind ?_)
    refine Reads.bind (reads_accept (o := comma) (by simp [separates]) (by simp) (by simp)) ?_
    exact (others.all depth u vs (by omega) apart).last reads_pure

end Complete

theorem Spells.readable (spells : Spells types words) : Readable types words := by
  induction spells with
  | named pointer names => exact readable_named pointer (namesType_iff.mpr names)
  | shorthand pointer short => exact readable_shorthand pointer short
  | container pointer opens inside closes ih => exact ih.container pointer opens closes
  | more one separates others first rest => exact first.more separates rest

section Sound

variable {start : Point} {c : Cursor}

/-- Calls that nest up to the depth and succeed take what their types are written with. -/
structure Spelling (depth : Nat) : Prop where
  one : ∀ start c, (call .typeTerm).Uses depth start c fun type ts _ => Spells [type] ts
  all : ∀ start c, (call .typeTerms).Uses depth start c fun types ts _ => Spells types ts

theorem typesUntil_uses (spelling : Spelling depth) (close : Kind) :
    (typesUntil close).Uses depth start c fun types ts d =>
      Spells types ts ∧ d.current.kind = close := by
  refine (spelling.all start c).bind fun types ts d spells => .isAt ?_
  split
  · next found => exact .pure ⟨by simpa using spells, of_decide_eq_true found⟩
  · exact .fail

theorem typeTerm_uses (spelling : Spelling depth) :
    typeTerm.Uses depth start c fun type ts _ => Spells [type] ts := by
  refine uses_accept.bind ?_
  rintro _ _ d ⟨star, rfl, pointer, rfl⟩
  refine .current ?_
  split
  · next container opens =>
    refine uses_shift.bind ?_
    rintro token _ d₁ ⟨rfl, rfl⟩
    refine (typesUntil_uses spelling container.closer).bind ?_
    rintro elements words d₂ ⟨inside, -⟩
    refine uses_expect.bind ?_
    rintro close _ d₃ ⟨rfl, closes, rfl⟩
    refine .pure ?_
    simpa using Spells.container pointer (Container.ofOpener?_eq_some.mp opens) inside closes
  · next container _ short =>
    refine uses_shift.bind ?_
    rintro token _ d₁ ⟨rfl, rfl⟩
    refine .pure ?_
    simpa using Spells.shorthand pointer (Container.ofShorthand?_eq_some.mp short)
  · split
    · next names =>
      refine uses_shift.bind ?_
      rintro token _ d₁ ⟨rfl, rfl⟩
      refine .pure ?_
      simpa using Spells.named pointer (namesType_iff.mp names)
    · exact .fail

theorem typeTerms_uses (spelling : Spelling depth) :
    typeTerms.Uses depth start c fun types ts _ => Spells types ts := by
  refine (spelling.one start c).bind fun first ws d one => ?_
  refine uses_accept.bind ?_
  rintro _ _ d₁ ⟨comma, rfl, separates, rfl⟩
  cases comma with
  | none => exact .pure (by simpa using one)
  | some comma =>
    refine (spelling.all start d₁).bind fun rest us d₂ others => ?_
    exact .pure (by simpa using one.more (separates comma rfl) others)

theorem spelling (depth : Nat) : Spelling depth := by
  induction depth with
  | zero => exact ⟨fun _ _ _ _ ran => (nomatch ran), fun _ _ _ _ ran => (nomatch ran)⟩
  | succ depth ih =>
    exact ⟨fun _ _ => uses_call (typeTerm_uses ih), fun _ _ => uses_call (typeTerms_uses ih)⟩

end Sound

/-- Types that lie ahead up to a token of the kind, which is no comma, are read as they are written,
and the cursor stops at that token. Whatever is read as types, from any cursor, is what they are
written with. -/
theorem typesUntil_exact (close : Kind) (c : Cursor) :
    (close ≠ .comma → ∀ (types : List TypeTerm) (words : List Token) (last : Token),
      Spells types words → last.kind = close → c.Faces (words ++ [last]) →
      ∃ d, c.run (typesUntil close) = (.ok types, d) ∧ c.Takes words d ∧ d.current = last) ∧
    ∀ (types : List TypeTerm) (d : Cursor), c.run (typesUntil close) = (.ok types, d) →
      ∃ words, Spells types words ∧ c.Takes words d ∧ d.current.kind = close := by
  refine ⟨?_, fun types d ran => ?_⟩
  · rintro apart types words last spells rfl faces
    have few := (Faces.mono faces (List.prefix_append ..)).length_lt spells.ne_eof
    have deep : 2 * words.length ≤ c.depth := by
      rw [Cursor.depth]
      omega
    obtain ⟨d, ran, takes⟩ := spells.readable.typesUntil deep apart c.point c faces
    exact ⟨d, run_ok.mpr ran, takes, (takes.faces faces).current⟩
  · obtain ⟨words, takes, spells, stops⟩ :=
      typesUntil_uses (spelling c.depth) close types d (run_ok.mp ran)
    exact ⟨words, spells, takes, stops⟩

/-- A pointer to a list of integers, and a linked list of anything. -/
theorem typesUntil_exact_pointer : ∃ (c d : Cursor) (types : List TypeTerm) (words : List Token),
    start "*[int], -[]>" none = .ok c ∧
    words.map Token.text = ["MULTIPLY", "ARR_OPEN", "INT", "ARR_CLOSE", "COMMA", "L_ARR_TYPE"] ∧
    Spells types words ∧ c.run (typesUntil .greaterThan) = (.ok types, d) ∧ c.Takes words d := by
  let sign (kind : Kind) (first stop : Nat) : Token := .canonical kind ⟨⟨1, first⟩, ⟨1, stop⟩⟩
  have ok : tokenize "*[int], -[]>" none = .ok [sign .multiply 1 2, sign .arrOpen 2 3,
      sign .intKw 3 6, sign .arrClose 6 7, sign .comma 7 8, sign .lArrType 9 12,
      sign .greaterThan 12 13, sign .eof 13 13] := by decide +kernel
  have list := @Spells.named none (sign .intKw 3 6) nofun (by decide)
  have pointer := @Spells.container (sign .multiply 1 2) (sign .arrOpen 2 3) (sign .arrClose 6 7)
    .arrayList _ _ (by rintro _ ⟨⟩; rfl) rfl list rfl
  have linked := @Spells.shorthand none (sign .lArrType 9 12) .linkedList nofun rfl
  have both := @Spells.more _ _ (sign .comma 7 8) _ _ pointer rfl linked
  have ⟨c, started⟩ : ∃ c, start "*[int], -[]>" none = .ok c := ⟨_, rfl⟩
  obtain ⟨d, ran, takes, -⟩ := (typesUntil_exact .greaterThan c).1 (by decide) _ _
    (sign .greaterThan 12 13) both rfl ((start_faces ok started).mono (by decide))
  exact ⟨c, d, _, _, started, by decide, both, ran, takes⟩

end ScriptSyntax
