import ClusterConsole.Text.Cut

/-!
# Namespace scopes

A scope is one namespace or all of them. The word for all namespaces is `*`;
`all` in any case and blank text are read the same way.
-/

namespace ClusterConsole.Resource

inductive Scope where
  | all
  | named (ns : String)
  deriving DecidableEq, Repr, Inhabited

namespace Scope

/-- The sign that stands for all namespaces. -/
def allSign : String := "*"

/-- The scope that a word names. -/
def ofWord (word : String) : Scope :=
  let word := Text.trim word
  if word = "" ∨ word = allSign ∨ Text.sameFolded word "all" then all else named word

/-- The scope as it is shown to the operator. -/
def label : Scope → String
  | all => "all"
  | named ns => ns

/-- The scope as a single word that `ofWord` reads. -/
def sign : Scope → String
  | all => allSign
  | named ns => ns

def isAll : Scope → Bool
  | all => true
  | named _ => false

/-- Whether rows of the namespace are in the scope. -/
def contains : Scope → String → Bool
  | all, _ => true
  | named own, ns => own == ns

/-- Whether the scope's sign is the one for all namespaces. -/
def clusterWide (s : Scope) : Bool := s.sign == allSign

end Scope

end ClusterConsole.Resource
