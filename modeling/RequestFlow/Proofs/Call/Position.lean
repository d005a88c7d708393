/-
Which argument a parameter receives at a call. Names are paired with arguments
in order, and a pattern among the parameters has no name: it is passed over and
takes no argument. So a parameter receives the argument at its place among the
named ones, which is its own position as long as no pattern stands before it.
-/
import Mathlib.Data.List.Nodup
import RequestFlow.Proofs.Call.Binding
import RequestFlow.Proofs.Syntax.Children

namespace RequestFlow

/-- The element at a place, seen from the list of those that satisfy `p`. -/
theorem getElem?_filter_countP {α : Type} {p : α → Bool} {l : List α} {i : Nat} {a : α}
    (hi : l[i]? = some a) (ha : p a = true) : (l.filter p)[(l.take i).countP p]? = some a := by
  obtain ⟨hlt, rfl⟩ := List.getElem?_eq_some_iff.mp hi
  have hsplit : l = l.take i ++ l[i] :: l.drop (i + 1) := by
    rw [← List.drop_eq_getElem_cons hlt, List.take_append_drop]
  have hfilter : l.filter p = (l.take i).filter p ++ l[i] :: (l.drop (i + 1)).filter p := by
    conv => lhs; rw [hsplit]
    rw [List.filter_append, List.filter_cons_of_pos ha]
  rw [hfilter, List.countP_eq_length_filter, List.getElem?_append_right (Nat.le_refl _)]
  simp

/-- The parameters that have a name. -/
def named (formals : List Node) : List Node := formals.filter (·.type == .identifier)

namespace CallSite

/-- At the call site the parameter receives that argument, or nothing where there is none. -/
def Receives (g : Service) (site : CallSite) (param : String) : Option Node → Prop
  | some arg => ∃ argument, site.get? param = some argument ∧ g.describeArgument arg = .ok argument
  | none => site.get? param = none

/-- A parameter that is bound to one argument only. -/
theorem get?_of_unique {site : CallSite} {param : String} {argument : Argument}
    (hm : (param, argument) ∈ site.bindings)
    (hu : ∀ binding ∈ site.bindings, binding.1 = param → binding.2 = argument) :
    site.get? param = some argument := by
  obtain ⟨binding, hf⟩ := Option.isSome_iff_exists.mp
    (List.find?_isSome (p := (·.1 == param)).mpr ⟨_, hm, by simp⟩)
  have hkey : binding.1 = param := by simpa using List.find?_some hf
  rw [get?, hf, Option.map_some, hu binding (List.mem_of_find?_eq_some hf) hkey]

theorem get?_eq_none {site : CallSite} {param : String}
    (h : ∀ binding ∈ site.bindings, binding.1 ≠ param) : site.get? param = none := by
  simpa [get?] using h

end CallSite

namespace Service

variable {g : Service} {call : Node} {params : List String} {args : List Node} {site : CallSite}

/-- A binding pairs a name with the argument at the same place. -/
theorem mem_bindings (h : g.bindArguments call params args = .ok site) {binding : String × Argument} :
    binding ∈ site.bindings ↔ ∃ (i : Nat) (arg : Node), params[i]? = some binding.1 ∧
      args[i]? = some arg ∧ g.describeArgument arg = .ok binding.2 := by
  obtain ⟨bindings, hb, h⟩ := exists_of_bind h
  cases h
  have hmem : binding ∈ (if args.length < params.length then bindings.reverse else bindings) ↔
      binding ∈ bindings := by
    split <;> simp
  rw [hmem, mem_mapM hb]
  constructor
  · rintro ⟨⟨param, arg⟩, hp, hpair⟩
    obtain ⟨argument, hd, hpair⟩ := exists_of_bind (x := g.describeArgument arg) hpair
    cases hpair
    obtain ⟨i, hi⟩ := List.getElem?_of_mem hp
    obtain ⟨hparam, harg⟩ := List.getElem?_zip_eq_some.mp hi
    exact ⟨i, arg, hparam, harg, hd⟩
  · rintro ⟨i, arg, hparam, harg, hd⟩
    refine ⟨(binding.1, arg), List.mem_of_getElem? (List.getElem?_zip_eq_some.mpr ⟨hparam, harg⟩), ?_⟩
    dsimp only
    rw [hd]
    rfl

theorem bindArguments_call (h : g.bindArguments call params args = .ok site) :
    site.call = call.id := by
  obtain ⟨bindings, -, h⟩ := exists_of_bind h
  cases h
  rfl

theorem bindArguments_length (h : g.bindArguments call params args = .ok site) :
    site.bindings.length = min params.length args.length := by
  obtain ⟨bindings, hb, h⟩ := exists_of_bind h
  cases h
  have hlength := length_mapM hb
  rw [List.length_zip] at hlength
  dsimp only
  split <;> simp [hlength]

/-- Distinct names receive the arguments at their places. -/
theorem bindArguments_receives (h : g.bindArguments call params args = .ok site) (hn : params.Nodup)
    {i : Nat} {param : String} (hi : params[i]? = some param) : site.Receives g param args[i]? := by
  have hplace : ∀ {j}, params[j]? = some param → j = i := by
    intro j hj
    obtain ⟨hlt, -⟩ := List.getElem?_eq_some_iff.mp hj
    exact (List.getElem?_inj hlt hn).mp (hj.trans hi.symm)
  cases ha : args[i]? with
  | none =>
    refine CallSite.get?_eq_none fun binding hm hkey => ?_
    obtain ⟨j, arg, hj, harg, -⟩ := (mem_bindings h).mp hm
    cases hplace (hkey ▸ hj)
    rw [ha] at harg
    cases harg
  | some arg =>
    obtain ⟨bindings, hb, -⟩ := exists_of_bind h
    obtain ⟨_, -, hpair⟩ :=
      getElem?_mapM hb (List.getElem?_zip_eq_some (z := (param, arg)).mpr ⟨hi, ha⟩)
    obtain ⟨argument, hd, -⟩ := exists_of_bind (x := g.describeArgument arg) hpair
    refine ⟨argument, CallSite.get?_of_unique ((mem_bindings h).mpr ⟨i, arg, hi, ha, hd⟩) ?_, hd⟩
    intro binding hm hkey
    obtain ⟨j, arg', hj, harg, hd'⟩ := (mem_bindings h).mp hm
    cases hplace (hkey ▸ hj)
    rw [ha] at harg
    cases harg
    rw [hd] at hd'
    cases hd'
    rfl

/-- The call sites of a function begin with the calls that the call graph knows, in order. -/
theorem getElem?_callSites {function : NodeId} {sites : List CallSite}
    (h : g.callSites function = .ok sites) {place : Nat} {edge : Edge}
    (he : (g.store.incoming function (some .cg))[place]? = some edge) :
    ∃ params call args site, g.parameters function = .ok params ∧ g.node edge.source = .ok call ∧
      g.childrenIn call.id "arguments" (some 1) = .ok args ∧
      g.bindArguments call params args = .ok site ∧ sites[place]? = some site := by
  unfold callSites at h
  obtain ⟨params, hp, h⟩ := exists_of_bind h
  obtain ⟨edges, hedges, h⟩ := exists_of_bind h
  obtain ⟨found, hfound, h⟩ := exists_of_bind h
  obtain ⟨continuation, -, h⟩ := exists_of_bind h
  rw [← ((incoming_agree (Alike.self g) function (by simp)).of_ok hedges).2] at he
  obtain ⟨site, hsite, hbind⟩ := getElem?_mapM hfound he
  obtain ⟨call, hcall, hbind⟩ := exists_of_bind hbind
  obtain ⟨args, hargs, hbind⟩ := exists_of_bind hbind
  refine ⟨params, call, args, site, hp, hcall, hargs, hbind, ?_⟩
  have hin : place < found.length := (List.getElem?_eq_some_iff.mp hsite).1
  split at h
  · obtain ⟨last, -, h⟩ := exists_of_bind h
    cases h
    rw [List.getElem?_append_left hin, hsite]
  · cases h
    exact hsite

end Service

/-- **A parameter receives the argument at its place among the named parameters**, and nothing where
the call has no such argument; arguments beyond the named parameters bind nothing. Where no pattern
stands before the parameter, that is the argument at its own position. On a closed graph the call
sites of every function are found. -/
theorem Store.callSites_receive {store : Store} {function : NodeId} {kids : Children Node}
    {formals : List Node} (hk : store.service.astChildren function = .ok kids)
    (hf : kids.Declares "params" 0 formals) (hn : ((named formals).map (·.code)).Nodup) :
    (store.Closed → ∃ sites, store.service.callSites function = .ok sites) ∧
    ∀ sites, store.service.callSites function = .ok sites →
      ∀ (place : Nat) (edge : Edge), (store.incoming function (some .cg))[place]? = some edge →
      ∃ (site : CallSite) (callKids : Children Node) (args : List Node),
        sites[place]? = some site ∧ site.call = edge.source ∧
        store.service.astChildren edge.source = .ok callKids ∧
        callKids.Declares "arguments" 1 args ∧
        site.bindings.length = min (named formals).length args.length ∧
        ∀ (i : Nat) (formal : Node), formals[i]? = some formal → formal.type = .identifier →
          site.Receives store.service formal.code args[(named (formals.take i)).length]? ∧
          ((∀ earlier ∈ formals.take i, earlier.type = .identifier) →
            site.Receives store.service formal.code args[i]?) := by
  refine ⟨fun hc => ?_, fun sites hs place edge he => ?_⟩
  · obtain ⟨sites, hs, -⟩ :=
      (Service.callSites_agree (.of_closed hc) (fun _ => hc) function).exists_ok
    exact ⟨sites, hs⟩
  obtain ⟨params, call, args, site, hp, hcall, hargs, hbind, hsite⟩ :=
    Service.getElem?_callSites hs he
  have hid : call.id = edge.source :=
    Store.id_of_node? ((Service.node_agree (Service.Alike.self _) nofun).of_ok hcall).2
  obtain ⟨callKids, hck, hargs⟩ := exists_of_bind hargs
  cases hargs
  -- The names of the parameters are those of the declared formals.
  have hparams : params = (named formals).map (·.code) := by
    simp only [Service.parameters, Service.childrenIn, hk, bind, Except.bind] at hp
    cases hp
    rw [Children.declares_iff.mp hf]
    rfl
  subst hparams
  refine ⟨site, callKids, _, hsite, (Service.bindArguments_call hbind).trans hid, hid ▸ hck,
    Children.declares_iff.mpr rfl, ?_, fun i formal hi ht => ?_⟩
  · simpa using Service.bindArguments_length hbind
  have hplace : ((named formals).map (·.code))[(named (formals.take i)).length]? =
      some formal.code := by
    have := getElem?_filter_countP (p := (·.type == .identifier)) hi (by simp [ht])
    rw [List.countP_eq_length_filter] at this
    rw [List.getElem?_map, named, named, this, Option.map_some]
  have hreceives := Service.bindArguments_receives hbind hn hplace
  refine ⟨hreceives, fun hall => ?_⟩
  have hlt : i < formals.length := (List.getElem?_eq_some_iff.mp hi).1
  have hown : (named (formals.take i)).length = i := by
    rw [named, List.filter_eq_self.mpr (by simpa using hall), List.length_take]
    omega
  rwa [hown] at hreceives

/-- A page with `function f({a}, b) {}` and the call `f(x, y)`. -/
def patternPage : Store :=
  .ofLists
    [{ id := 1, type := .functionDeclaration }, { id := 2, type := .identifier, code := "f" },
     { id := 3, type := .other "ObjectPattern" }, { id := 4, type := .identifier, code := "b" },
     { id := 5, type := .blockStatement }, { id := 6, type := .callExpression },
     { id := 7, type := .identifier, code := "f" }, { id := 8, type := .identifier, code := "x" },
     { id := 9, type := .identifier, code := "y" }]
    [{ source := 1, target := 2, relation := .ast, relationType := "id" },
     { source := 1, target := 3, relation := .ast, relationType := "params",
       arguments := "\x7b\"arg\":0\x7d" },
     { source := 1, target := 4, relation := .ast, relationType := "params",
       arguments := "\x7b\"arg\":1\x7d" },
     { source := 1, target := 5, relation := .ast, relationType := "body" },
     { source := 6, target := 7, relation := .ast, relationType := "callee" },
     { source := 6, target := 8, relation := .ast, relationType := "arguments",
       arguments := "\x7b\"arg\":0\x7d" },
     { source := 6, target := 9, relation := .ast, relationType := "arguments",
       arguments := "\x7b\"arg\":1\x7d" },
     { source := 6, target := 1, relation := .cg }]

namespace patternPage

def pattern : Node := { id := 3, type := .other "ObjectPattern" }

def b : Node := { id := 4, type := .identifier, code := "b" }

def x : Node := { id := 8, type := .identifier, code := "x" }

def y : Node := { id := 9, type := .identifier, code := "y" }

def kids (id : NodeId) : Children Node := (patternPage.service.astChildren id).toOption.getD []

theorem astChildren_function : patternPage.service.astChildren 1 = .ok (kids 1) := by decide +kernel

theorem astChildren_call : patternPage.service.astChildren 6 = .ok (kids 6) := by decide +kernel

theorem declares_formals : (kids 1).Declares "params" 0 [pattern, b] :=
  Children.declares_iff.mpr (by decide +kernel)

theorem declares_arguments : (kids 6).Declares "arguments" 1 [x, y] :=
  Children.declares_iff.mpr (by decide +kernel)

end patternPage

/-- `b` is the first parameter with a name, and receives the first argument. -/
theorem Store.callSites_receive_patternPage :
    ∃ site, patternPage.service.callSites 1 = .ok [site] ∧ site.bindings.length = 1 ∧
      site.Receives patternPage.service "b" (some patternPage.x) := by
  have hs : patternPage.service.callSites 1 =
      .ok [⟨6, "", [("b", ⟨8, .identifier, "x", [], ⟨[("x", 8)]⟩⟩)]⟩] := by decide +kernel
  obtain ⟨site, callKids, args, hsite, -, hck, hargs, hlength, hreceives⟩ :=
    (Store.callSites_receive patternPage.astChildren_function patternPage.declares_formals
      (by decide)).2 _ hs 0 { source := 6, target := 1, relation := .cg } (by decide +kernel)
  cases hsite
  cases patternPage.astChildren_call.symm.trans hck
  have hxy : args = [patternPage.x, patternPage.y] := (Children.declares_iff.mp hargs).trans
    (Children.declares_iff.mp patternPage.declares_arguments).symm
  subst hxy
  exact ⟨_, hs, hlength, (hreceives 1 patternPage.b rfl rfl).1⟩

/-- The second parameter does not receive the second argument: the pattern before it is passed over,
and it receives the first. -/
theorem Store.callSites_patternPage_shifted :
    patternPage.Closed ∧ patternPage.service.astChildren 1 = .ok (patternPage.kids 1) ∧
    (patternPage.kids 1).Declares "params" 0 [patternPage.pattern, patternPage.b] ∧
    patternPage.incoming 1 (some .cg) = [{ source := 6, target := 1, relation := .cg }] ∧
    patternPage.service.astChildren 6 = .ok (patternPage.kids 6) ∧
    (patternPage.kids 6).Declares "arguments" 1 [patternPage.x, patternPage.y] ∧
    ∃ site, patternPage.service.callSites 1 = .ok [site] ∧
      ¬ site.Receives patternPage.service patternPage.b.code (some patternPage.y) := by
  refine ⟨by decide +kernel, patternPage.astChildren_function, patternPage.declares_formals,
    by decide +kernel, patternPage.astChildren_call, patternPage.declares_arguments, ?_⟩
  refine ⟨⟨6, "", [("b", ⟨8, .identifier, "x", [], ⟨[("x", 8)]⟩⟩)]⟩, by decide +kernel, ?_⟩
  rintro ⟨argument, hget, hdescribed⟩
  cases hget
  cases hdescribed

end RequestFlow
