/-! Tries over words. A node is reached by the characters of a word and may carry a value; a later
insertion of a word replaces the value of an earlier one. -/
namespace ScriptSyntax

inductive Trie (α : Type) where
  | node (value : Option α) (branches : List (Char × Trie α))

namespace Trie

variable {α : Type}

def empty : Trie α := .node none []

def value : Trie α → Option α
  | .node value _ => value

/-- The node below `t` on the branch of `c`. -/
def step : Trie α → Char → Option (Trie α)
  | .node _ branches, c => branches.lookup c

def insert : Trie α → List Char → α → Trie α
  | .node _ branches, [], a => .node (some a) branches
  | .node value branches, c :: word, a =>
    .node value ((c, insert ((branches.lookup c).getD empty) word a) ::
      branches.filter fun b => b.1 != c)

def ofList (entries : List (List Char × α)) : Trie α :=
  entries.foldl (fun t entry => t.insert entry.1 entry.2) empty

/-- The node that `word` leads to. -/
def walk (t : Trie α) (word : List Char) : Option (Trie α) :=
  word.foldlM step t

def find? (t : Trie α) (word : List Char) : Option α :=
  (t.walk word).bind value

/-- What a walk along `word` meets at each character. -/
def trail (t : Trie α) (word : List Char) : List (Option (Trie α)) :=
  (List.range word.length).map fun n => t.walk (word.take (n + 1))

end Trie
end ScriptSyntax
