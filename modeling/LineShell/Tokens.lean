import LineShell.Bytes

/-!
Tokens of a command line: the maximal stretches free of delimiters, copied byte for byte. There is
no quoting and no expansion, so a line is read in one way only.
-/
namespace LineShell

/-- Space, tab, carriage return, newline and bell. -/
def delimiters : List UInt8 := [32, 9, 13, 10, 7]

def isDelimiter (b : UInt8) : Bool :=
  delimiters.contains b

/-- A command followed by its arguments. An empty token cannot be typed, so none is held. -/
structure TokenList where
  tokens : List Bytes
  tokens_nonempty : ∀ t ∈ tokens, t ≠ []
  deriving DecidableEq

namespace TokenList

def ofList (words : List Bytes) : TokenList where
  tokens := words.filter (!·.isEmpty)
  tokens_nonempty := by simp +contextual

def empty : TokenList := ofList []

def get? (list : TokenList) (index : Nat) : Option Bytes :=
  list.tokens[index]?

def command? (list : TokenList) : Option Bytes :=
  list.get? 0

theorem command?_eq_some_iff {list : TokenList} {name : Bytes} :
    list.command? = some name ↔ ∃ arguments, list.tokens = name :: arguments := by
  cases h : list.tokens <;> simp [command?, get?, h]

def size (list : TokenList) : Nat :=
  list.tokens.length

def isEmpty (list : TokenList) : Bool :=
  list.tokens.isEmpty

end TokenList

def tokenize (line : Bytes) : TokenList :=
  TokenList.ofList (line.splitWhere isDelimiter)

end LineShell
