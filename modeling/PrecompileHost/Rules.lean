/-!
Hard forks in the order of their activation, and the rules of a block: its chain and the latest
fork that is active there.
-/

namespace PrecompileHost

inductive Fork
  | frontier
  | frontierThawing
  | homestead
  | daoFork
  | tangerine
  | spuriousDragon
  | byzantium
  | constantinople
  | petersburg
  | istanbul
  | muirGlacier
  | berlin
  | london
  | arrowGlacier
  | grayGlacier
  | merge
  | shanghai
  | cancun
  | prague
  | osaka
  | amsterdam
  deriving DecidableEq, Repr

namespace Fork

/-- All forks, earliest first. -/
def all : List Fork :=
  [.frontier, .frontierThawing, .homestead, .daoFork, .tangerine, .spuriousDragon, .byzantium,
    .constantinople, .petersburg, .istanbul, .muirGlacier, .berlin, .london, .arrowGlacier,
    .grayGlacier, .merge, .shanghai, .cancun, .prague, .osaka, .amsterdam]

/-- The fork's place in the order of activation. -/
def rank : Fork → Nat
  | .frontier => 0
  | .frontierThawing => 1
  | .homestead => 2
  | .daoFork => 3
  | .tangerine => 4
  | .spuriousDragon => 5
  | .byzantium => 6
  | .constantinople => 7
  | .petersburg => 8
  | .istanbul => 9
  | .muirGlacier => 10
  | .berlin => 11
  | .london => 12
  | .arrowGlacier => 13
  | .grayGlacier => 14
  | .merge => 15
  | .shanghai => 16
  | .cancun => 17
  | .prague => 18
  | .osaka => 19
  | .amsterdam => 20

/-- The name in prose. -/
def name : Fork → String
  | .frontier => "Frontier"
  | .frontierThawing => "Frontier Thawing"
  | .homestead => "Homestead"
  | .daoFork => "DAO Fork"
  | .tangerine => "Tangerine"
  | .spuriousDragon => "Spurious"
  | .byzantium => "Byzantium"
  | .constantinople => "Constantinople"
  | .petersburg => "Petersburg"
  | .istanbul => "Istanbul"
  | .muirGlacier => "MuirGlacier"
  | .berlin => "Berlin"
  | .london => "London"
  | .arrowGlacier => "Arrow Glacier"
  | .grayGlacier => "Gray Glacier"
  | .merge => "Merge"
  | .shanghai => "Shanghai"
  | .cancun => "Cancun"
  | .prague => "Prague"
  | .osaka => "Osaka"
  | .amsterdam => "Amsterdam"

/-- The name in diagnostics. -/
def constantName : Fork → String
  | .frontier => "FRONTIER"
  | .frontierThawing => "FRONTIER_THAWING"
  | .homestead => "HOMESTEAD"
  | .daoFork => "DAO_FORK"
  | .tangerine => "TANGERINE"
  | .spuriousDragon => "SPURIOUS_DRAGON"
  | .byzantium => "BYZANTIUM"
  | .constantinople => "CONSTANTINOPLE"
  | .petersburg => "PETERSBURG"
  | .istanbul => "ISTANBUL"
  | .muirGlacier => "MUIR_GLACIER"
  | .berlin => "BERLIN"
  | .london => "LONDON"
  | .arrowGlacier => "ARROW_GLACIER"
  | .grayGlacier => "GRAY_GLACIER"
  | .merge => "MERGE"
  | .shanghai => "SHANGHAI"
  | .cancun => "CANCUN"
  | .prague => "PRAGUE"
  | .osaka => "OSAKA"
  | .amsterdam => "AMSTERDAM"

def ofName? (name : String) : Option Fork :=
  all.find? (·.name = name)

end Fork

structure Rules where
  chainId : UInt64 := 1
  latest : Fork := .osaka
  deriving DecidableEq, Repr

namespace Rules

/-- A fork is active unless it comes after the latest one. -/
def isActive (r : Rules) (fork : Fork) : Bool :=
  fork.rank ≤ r.latest.rank

/-- The active forks, earliest first. -/
def activeForks (r : Rules) : List Fork :=
  Fork.all.filter r.isActive

end Rules

end PrecompileHost
