/-
This file numbers the names of a grammar and records what each name stands for.
-/

namespace ShiftReduce

/-- A symbol is the position of its name in a vocabulary. -/
abbrev Symbol := Nat

inductive SymbolKind
  | start
  | nonterminal
  | terminal
  | endMarker
deriving DecidableEq

def SymbolKind.isNonterminal : SymbolKind → Bool
  | .start | .nonterminal => true
  | .terminal | .endMarker => false

/-- No source text may use the name of the end marker. -/
def endMarkerName : String := "$"

/-- Every name has one position, and a position never changes once it is given. -/
structure Vocabulary where
  entries : List (String × SymbolKind)
  names_nodup : (entries.map Prod.fst).Nodup

namespace Vocabulary

def empty : Vocabulary := ⟨[], List.nodup_nil⟩

def names (vocabulary : Vocabulary) : List String :=
  vocabulary.entries.map Prod.fst

def kinds (vocabulary : Vocabulary) : List SymbolKind :=
  vocabulary.entries.map Prod.snd

def size (vocabulary : Vocabulary) : Nat :=
  vocabulary.entries.length

def isEmpty (vocabulary : Vocabulary) : Bool :=
  vocabulary.entries.isEmpty

/-- An absent name has the position that it would get next. -/
def position (vocabulary : Vocabulary) (name : String) : Symbol :=
  vocabulary.names.findIdx (· == name)

def lookup (vocabulary : Vocabulary) (name : String) : Option Symbol :=
  vocabulary.names.findIdx? (· == name)

def name? (vocabulary : Vocabulary) (symbol : Symbol) : Option String :=
  vocabulary.entries[symbol]?.map Prod.fst

def kind? (vocabulary : Vocabulary) (symbol : Symbol) : Option SymbolKind :=
  vocabulary.entries[symbol]?.map Prod.snd

def isNonterminal (vocabulary : Vocabulary) (symbol : Symbol) : Bool :=
  (vocabulary.kind? symbol).any SymbolKind.isNonterminal

/-- The end marker is not a terminal. -/
def isTerminal (vocabulary : Vocabulary) (symbol : Symbol) : Bool :=
  vocabulary.kind? symbol == some .terminal

/-- A known name keeps its position and kind, and a new one comes last. -/
def intern (vocabulary : Vocabulary) (name : String) (kind : SymbolKind) : Vocabulary :=
  if known : name ∈ vocabulary.names then vocabulary
  else ⟨vocabulary.entries ++ [(name, kind)], by
    rw [List.map_append, List.nodup_append]
    exact ⟨vocabulary.names_nodup, by simp, fun first member second last => by
      have last : second = name := by simpa using last
      exact fun same => known ((same.trans last) ▸ member)⟩⟩

/-- The first name of a vocabulary becomes the start symbol when it names a nonterminal. -/
def internNonterminal (vocabulary : Vocabulary) (name : String) : Vocabulary :=
  vocabulary.intern name (if vocabulary.isEmpty then .start else .nonterminal)

def internTerminal (vocabulary : Vocabulary) (name : String) : Vocabulary :=
  vocabulary.intern name .terminal

def internEndMarker (vocabulary : Vocabulary) : Vocabulary :=
  vocabulary.intern endMarkerName .endMarker

def internNonterminals (vocabulary : Vocabulary) (names : List String) : Vocabulary :=
  names.foldl internNonterminal vocabulary

def internTerminals (vocabulary : Vocabulary) (names : List String) : Vocabulary :=
  names.foldl internTerminal vocabulary

def nonterminalCount (vocabulary : Vocabulary) : Nat :=
  vocabulary.kinds.countP SymbolKind.isNonterminal

/-- This is the end marker once that is the last name. -/
def lastSymbol (vocabulary : Vocabulary) : Symbol :=
  vocabulary.size - 1

def symbols (vocabulary : Vocabulary) : List Symbol :=
  List.range vocabulary.size

/-- In a grammar the nonterminals come first. -/
def nonterminals (vocabulary : Vocabulary) : List Symbol :=
  List.range vocabulary.nonterminalCount

/-- In a grammar the end marker is the last symbol, and the terminals come before it. -/
def terminals (vocabulary : Vocabulary) : List Symbol :=
  List.range' vocabulary.nonterminalCount (vocabulary.lastSymbol - vocabulary.nonterminalCount)

/-- In a grammar the terminals and the end marker come after the nonterminals. -/
def terminalsAndEnd (vocabulary : Vocabulary) : List Symbol :=
  List.range' vocabulary.nonterminalCount (vocabulary.size - vocabulary.nonterminalCount)

/-- An unknown symbol shows as a dollar sign and its number. -/
def label (vocabulary : Vocabulary) (symbol : Symbol) : String :=
  (vocabulary.name? symbol).getD ("$" ++ toString symbol)

end Vocabulary

end ShiftReduce
