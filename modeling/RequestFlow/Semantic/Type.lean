/-
Semantic types: what a value may have been read from, and what kind of request
data it is written to. In a set of types, "nothing found" gives way to anything
else.
-/
import RequestFlow.Order
import RequestFlow.Text.Blank
import RequestFlow.Text.Pieces

namespace RequestFlow

inductive SemanticType where
  | nonReach
  | rdWinLoc
  | rdWinName
  | rdDocRef
  | rdPm
  | rdWebStorage
  | rdDom
  | rdCookie
  | reqPushSub
  | domclobWin
  | domclobDoc
  | wrWebsocketUrl
  | wrEventsourceUrl
  | wrReqUrl
  | wrReqBody
  | wrReqHeader
  | wrReqParams
  | wrWinOpenUrl
  | wrWinLocUrl
  deriving DecidableEq, Repr, Inhabited

namespace SemanticType

/-- The vocabulary, in the order of reports. -/
def all : List SemanticType :=
  [nonReach, rdWinLoc, rdWinName, rdDocRef, rdPm, rdWebStorage, rdDom, rdCookie, reqPushSub,
   domclobWin, domclobDoc, wrWebsocketUrl, wrEventsourceUrl, wrReqUrl, wrReqBody, wrReqHeader,
   wrReqParams, wrWinOpenUrl, wrWinLocUrl]

def index (type : SemanticType) : Nat := all.idxOf type

theorem all_index (type : SemanticType) : all[type.index]? = some type := by cases type <;> rfl

theorem index_inj {a b : SemanticType} (h : a.index = b.index) : a = b := by
  have ha := all_index a
  rw [h, all_index b] at ha
  exact (Option.some.inj ha).symm

def name : SemanticType → String
  | nonReach => "NON_REACH"
  | rdWinLoc => "RD_WIN_LOC"
  | rdWinName => "RD_WIN_NAME"
  | rdDocRef => "RD_DOC_REF"
  | rdPm => "RD_PM"
  | rdWebStorage => "RD_WEB_STORAGE"
  | rdDom => "RD_DOM"
  | rdCookie => "RD_COOKIE"
  | reqPushSub => "REQ_PUSH_SUB"
  | domclobWin => "DOMCLOB_WIN"
  | domclobDoc => "DOMCLOB_DOC"
  | wrWebsocketUrl => "WR_WEBSOCKET_URL"
  | wrEventsourceUrl => "WR_EVENTSOURCE_URL"
  | wrReqUrl => "WR_REQ_URL"
  | wrReqBody => "WR_REQ_BODY"
  | wrReqHeader => "WR_REQ_HEADER"
  | wrReqParams => "WR_REQ_PARAMS"
  | wrWinOpenUrl => "WR_WIN_OPEN_URL"
  | wrWinLocUrl => "WR_WIN_LOC_URL"

/-- The type of exactly that name. -/
def named? (name : String) : Option SemanticType := all.find? (·.name == name)

/-- The type of that name; white space around it and the case of its letters do not matter. -/
def ofName? (name : String) : Option SemanticType := named? (Text.upper (Text.trim name))

/-- A type of values that are read, as opposed to written into a request. -/
def isSource (type : SemanticType) : Bool := !Text.startsWith "WR_" type.name

def description : SemanticType → String
  | nonReach => "No attacker-controllable source reaches the value"
  | rdWinLoc => "Reads the page URL (window.location and its parts)"
  | rdWinName => "Reads window.name, which survives cross-origin navigation"
  | rdDocRef => "Reads document.referrer"
  | rdPm => "Reads the payload of a postMessage event"
  | rdWebStorage => "Reads localStorage or sessionStorage"
  | rdDom => "Reads attributes or content of DOM elements"
  | rdCookie => "Reads document.cookie"
  | reqPushSub => "Uses a push-notification subscription"
  | domclobWin => "Reads a window property that injected markup can clobber"
  | domclobDoc => "Reads a document property that injected markup can clobber"
  | wrWebsocketUrl => "URL of a WebSocket connection"
  | wrEventsourceUrl => "URL of an EventSource stream"
  | wrReqUrl => "URL of an outgoing HTTP request"
  | wrReqBody => "Body of an outgoing HTTP request"
  | wrReqHeader => "Header of an outgoing HTTP request"
  | wrReqParams => "Parameters of an outgoing HTTP request"
  | wrWinOpenUrl => "URL passed to window.open"
  | wrWinLocUrl => "URL assigned to the page location"

end SemanticType

/-- A set of types: each once, in the order of the vocabulary. -/
structure TypeSet where
  types : List SemanticType
  ordered : types.Pairwise (·.index < ·.index)
  deriving DecidableEq, Repr

instance : EmptyCollection TypeSet := ⟨⟨[], .nil⟩⟩

instance : Inhabited TypeSet := ⟨{}⟩

namespace TypeSet

/-- Puts a type in its place, once. -/
def place (type : SemanticType) : List SemanticType → List SemanticType
  | [] => [type]
  | t :: rest =>
    if type = t then t :: rest
    else if type.index < t.index then type :: t :: rest
    else t :: place type rest

theorem mem_place {type t : SemanticType} {types : List SemanticType} :
    t ∈ place type types ↔ t = type ∨ t ∈ types := by
  induction types with
  | nil => simp [place]
  | cons u rest ih =>
    rw [place]
    split
    · subst_vars; simp
    · split <;> simp [ih, or_left_comm]

theorem place_ordered {type : SemanticType} {types : List SemanticType}
    (h : types.Pairwise (·.index < ·.index)) : (place type types).Pairwise (·.index < ·.index) := by
  induction types with
  | nil => simp [place]
  | cons u rest ih =>
    rw [List.pairwise_cons] at h
    rw [place]
    split
    · exact List.pairwise_cons.mpr h
    · next hne =>
      split
      · next hlt =>
        refine List.pairwise_cons.mpr ⟨fun t ht => ?_, List.pairwise_cons.mpr h⟩
        rcases List.mem_cons.mp ht with rfl | ht
        · exact hlt
        · exact Nat.lt_trans hlt (h.1 t ht)
      · next hge =>
        refine List.pairwise_cons.mpr ⟨fun t ht => ?_, ih h.2⟩
        rcases mem_place.mp ht with ht | ht
        · have : type.index ≠ u.index := fun he => hne (SemanticType.index_inj he)
          rw [ht]
          omega
        · exact h.1 t ht

/-- Inserts a type. `NON_REACH` does not stay beside another type. -/
def insert (set : TypeSet) (type : SemanticType) : TypeSet :=
  let types := place type set.types
  if 1 < types.length then ⟨types.filter (· ≠ .nonReach), (place_ordered set.ordered).filter _⟩
  else ⟨types, place_ordered set.ordered⟩

def insertAll (set : TypeSet) (types : List SemanticType) : TypeSet := types.foldl insert set

def ofList (types : List SemanticType) : TypeSet := insertAll {} types

/-- The set that says that nothing was found. -/
def nonReach : TypeSet := ofList [.nonReach]

def union (set other : TypeSet) : TypeSet := set.insertAll other.types

def contains (set : TypeSet) (type : SemanticType) : Bool := set.types.contains type

def size (set : TypeSet) : Nat := set.types.length

def isEmpty (set : TypeSet) : Bool := set.types.isEmpty

/-- An empty set says that nothing was found. -/
def orNonReach (set : TypeSet) : TypeSet := if set.isEmpty then nonReach else set

def text (set : TypeSet) : String :=
  "\x7b" ++ ", ".intercalate (set.types.map (·.name)) ++ "\x7d"

end TypeSet

end RequestFlow
