/-
Texts with the literals and names in them, in reading order, and what a node
writes while its children are rendered as such texts. A rendering keeps the first
occurrence of each name.
-/
import Mathlib.Data.List.Forall2
import RequestFlow.Proofs.Order
import RequestFlow.Syntax.Rendered

namespace RequestFlow

/-! ## Texts with what they mention -/

/-- A text with the literals and names in it, in reading order. -/
@[ext] structure Printed where
  code : String := ""
  literals : List String := []
  names : List String := []
  deriving Inhabited

namespace Printed

instance : Append Printed :=
  ⟨fun p q => ⟨p.code ++ q.code, p.literals ++ q.literals, p.names ++ q.names⟩⟩

/-- A text that mentions nothing. -/
instance : Coe String Printed := ⟨fun s => { code := s }⟩

/-- A text that names itself. -/
def name (s : String) : Printed := ⟨s, [], [s]⟩

def joined (separator : String) (list : List Printed) : Printed :=
  ⟨separator.intercalate (list.map code), list.flatMap literals, list.flatMap names⟩

/-- The text in braces, unless it stands in some already. -/
def inBraces (p : Printed) : Printed :=
  match p.code.toList with
  | '\x7b' :: _ => p
  | [] => { p with code := "\x7b\x7d" }
  | _ => { p with code := "\x7b " ++ p.code ++ "; \x7d" }

/-- Statements in braces. -/
def block (list : List Printed) : Printed :=
  if list.isEmpty then "\x7b\x7d" else "\x7b " ++ joined "; " list ++ "; \x7d"

/-- A property of an object. -/
def property (key : String) (value : Printed) : Printed := key ++ ": " ++ value

/-- What is done with a caught value. -/
def clause (param : String) (body : Printed) : Printed :=
  "catch(" ++ name param ++ ") " ++ body.inBraces

/-- A function up to its parameters. -/
def header (name : String) : String :=
  if name.isEmpty then "function(" else "function " ++ name ++ "("

theorem header_append (name params : String) :
    (if name.isEmpty then "function(" ++ params ++ ") "
      else "function " ++ name ++ "(" ++ params ++ ") ") = header name ++ params ++ ") " := by
  unfold header
  split <;> rfl

/-- The body of a function; the short form has none. -/
def body (short : Bool) (p : Printed) : Printed := if short then "\x7b...\x7d" else p

@[simp] theorem code_append (p q : Printed) : (p ++ q).code = p.code ++ q.code := rfl

@[simp] theorem literals_append (p q : Printed) :
    (p ++ q).literals = p.literals ++ q.literals := rfl

@[simp] theorem names_append (p q : Printed) : (p ++ q).names = p.names ++ q.names := rfl

theorem code_inBraces (p : Printed) : p.inBraces.code = Rendered.braced p.code := by
  have hbrace : ("\x7b").toList = ['\x7b'] := rfl
  unfold inBraces Rendered.braced Text.startsWith Chars.startsWith
  rw [hbrace]
  split
  · next rest hs => simp [hs, Chars.after?]
  · next hs =>
    have he : p.code = "" := String.toList_eq_nil_iff.mp hs
    rw [he]
    rfl
  · next hopen hne =>
    cases hs : p.code.toList with
    | nil => exact absurd hs hne
    | cons c rest =>
      have hc : '\x7b' ≠ c := fun he => hopen rest (he ▸ hs)
      have hempty : p.code.isEmpty = false := by
        rw [← Bool.not_eq_true, String.isEmpty_iff, ← String.toList_eq_nil_iff, hs]
        simp
      simp only [Chars.after?, if_neg hc, Option.isSome_none, hempty, Rendered.braces]
      apply String.toList_injective
      simp

@[simp] theorem literals_inBraces (p : Printed) : p.inBraces.literals = p.literals := by
  unfold inBraces
  split <;> rfl

@[simp] theorem names_inBraces (p : Printed) : p.inBraces.names = p.names := by
  unfold inBraces
  split <;> rfl

theorem inBraces_block (list : List Printed) : (block list).inBraces = block list := by
  have hopen : ∃ rest, (block list).code.toList = '\x7b' :: rest := by
    unfold block
    split
    · exact ⟨['\x7d'], rfl⟩
    · refine ⟨' ' :: (joined "; " list).code.toList ++ "; \x7d".toList, ?_⟩
      simp
  obtain ⟨rest, hrest⟩ := hopen
  simp [inBraces, hrest]

end Printed

/-- A rendering with that text, those literals, and the first occurrences of those names. -/
structure Rendered.Shows (rendered : Rendered) (p : Printed) : Prop where
  code : rendered.code = p.code
  literals : rendered.literals = p.literals
  names : rendered.identifiers.names = firsts p.names

namespace IdentifierMap

theorem names_insert (map : IdentifierMap) (name : String) (origin : NodeId) :
    (map.insert name origin).names =
      if name ∈ map.names then map.names else map.names ++ [name] := by
  obtain ⟨entries⟩ := map
  unfold insert names
  dsimp only
  induction entries with
  | nil => rfl
  | cons entry entries ih =>
    obtain ⟨other, node⟩ := entry
    rw [put]
    split
    · next he => simp [he]
    · next hne =>
      have hn : ¬ name = other := fun he => hne he.symm
      simp only [List.map_cons, ih, List.mem_cons, hn, false_or]
      split <;> simp

theorem names_append (map other : IdentifierMap) : (map ++ other).names =
    other.names.foldl (fun seen a => if a ∈ seen then seen else seen ++ [a]) map.names := by
  change (other.entries.foldl (fun map entry => map.insert entry.1 entry.2) map).names =
    (other.entries.map (·.1)).foldl _ _
  induction other.entries generalizing map with
  | nil => rfl
  | cons entry entries ih =>
    rw [List.foldl_cons, ih, List.map_cons, List.foldl_cons, names_insert]

end IdentifierMap

/-! ## Writing -/

namespace Writing

variable {α β : Type} {render : Renderer}

/-- `w` gives `a` and mentions those literals and names. -/
def Writes (render : Renderer) (w : Writing α) (a : α) (literals names : List String) : Prop :=
  ∀ m : Mentions, ∃ m', (w.run render).run m = .ok (a, m') ∧
    m'.literals = m.literals ++ literals ∧ m'.identifiers.names =
      names.foldl (fun seen a => if a ∈ seen then seen else seen ++ [a]) m.identifiers.names

/-- The child is rendered as that text. -/
def RendersAs (render : Renderer) (child : Node) (p : Printed) : Prop :=
  ∃ rendered, render child = .ok rendered ∧ rendered.Shows p

namespace Writes

theorem pure (a : α) : Writes render (pure a) a [] [] := fun m => ⟨m, rfl, by simp, rfl⟩

theorem bind {w : Writing α} {f : α → Writing β} {a : α} {b : β} {ls ns ls' ns' : List String}
    (hw : Writes render w a ls ns) (hf : Writes render (f a) b ls' ns') :
    Writes render (w >>= f) b (ls ++ ls') (ns ++ ns') := by
  intro m
  obtain ⟨m₁, hrun₁, hl₁, hn₁⟩ := hw m
  obtain ⟨m₂, hrun₂, hl₂, hn₂⟩ := hf m₁
  refine ⟨m₂, ?_, ?_, ?_⟩
  · change ((w.run render).run m >>= fun p => ((f p.1).run render).run p.2) = _
    rw [hrun₁]
    exact hrun₂
  · rw [hl₂, hl₁, List.append_assoc]
  · rw [hn₂, hn₁, List.foldl_append]

/-- What is read from the graph is there. -/
theorem known {a : α} {f : α → Writing β} {b : β} {ls ns : List String}
    (h : Writes render (f a) b ls ns) :
    Writes render (liftM (Except.ok a : Except GraphFault α) >>= f) b ls ns :=
  have hknown : Writes render (liftM (Except.ok a : Except GraphFault α)) a [] [] :=
    fun m => ⟨m, rfl, by simp, rfl⟩
  hknown.bind h

theorem part {child : Node} {p : Printed} (h : RendersAs render child p) :
    Writes render (part child) p.code p.literals p.names := by
  intro m
  obtain ⟨rendered, hr, hs⟩ := h
  refine ⟨⟨m.literals ++ rendered.literals, m.identifiers ++ rendered.identifiers⟩, ?_, ?_, ?_⟩
  · change (render child >>= fun rendered => .ok (rendered, m)) >>= _ = _
    rw [hr, ← hs.code]
    rfl
  · rw [hs.literals]
  · rw [IdentifierMap.names_append, hs.names, firsts, foldl_foldl_firsts, List.nil_append]

theorem part? {child : Option Node} {p : Option Printed}
    (h : Option.Rel (RendersAs render) child p) :
    Writes render (part? child) (p.getD {}).code (p.getD {}).literals (p.getD {}).names := by
  cases h with
  | none => exact .pure ""
  | some h => exact part h

theorem congr {w : Writing α} {a b : α} {ls ns ls' ns' : List String} (h : Writes render w a ls ns)
    (ha : a = b) (hl : ls = ls') (hn : ns = ns') : Writes render w b ls' ns' :=
  ha ▸ hl ▸ hn ▸ h

theorem parts {children : List Node} {ps : List Printed}
    (h : List.Forall₂ (RendersAs render) children ps) :
    Writes render (parts children) (ps.map (·.code)) (ps.flatMap (·.literals))
      (ps.flatMap (·.names)) := by
  induction h with
  | nil => exact .pure []
  | cons hchild _ ih =>
    exact .congr (.bind (part hchild) (.bind ih (.pure _))) rfl (by simp) (by simp)

theorem joined {separator : String} {children : List Node} {ps : List Printed}
    (h : List.Forall₂ (RendersAs render) children ps) :
    Writes render (joined separator children) (Printed.joined separator ps).code
      (Printed.joined separator ps).literals (Printed.joined separator ps).names :=
  .congr (.bind (parts h) (.pure _)) rfl (List.append_nil _) (List.append_nil _)

theorem mentionName (name : String) (origin : NodeId) :
    Writes render (mentionName name origin) () [] [name] :=
  fun m => ⟨_, rfl, by simp, IdentifierMap.names_insert _ _ _⟩

theorem mentionLiteral (value : String) : Writes render (mentionLiteral value) () [value] [] :=
  fun _ => ⟨_, rfl, rfl, rfl⟩

end Writes

end Writing

end RequestFlow
