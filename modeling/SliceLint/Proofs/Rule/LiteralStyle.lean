import SliceLint.Proofs.Engine.Isolation
import SliceLint.Proofs.Source.Preorder
import SliceLint.Rule.LiteralStyle

/-!
# Literal values in styles are reported once

A style is an object that a `style` attribute holds or that is an argument of a call (`Holds`). The
rule comes to a style of the first kind at the attribute, and to one of the second at the object.

**Marks** (`Mark`). A finding is known by the address of its style, by the number of a pair in it
and by a family (`Shows`). One pair may look like another, and so may one style, but no two styles
have the same address.

**One way to a style** (`origin_unique`). What an attribute holds stands in an expression and what
is an argument stands in arguments, so no style is come to in both ways. The findings of a walk have
different marks, and every mark that shows a literal value has its finding
(`literal_styles_reported_once`).
-/

namespace SliceLint.LiteralStyle

open StyleValue

/-! ## Styles -/

/-- A node holds or is a style, which is found from it by going down. -/
inductive Holds (v : Visit) : List Nat → Tree → Prop
  /-- The object comes first in the first expression of a `style` attribute. -/
  | held {name expression style : Tree} {before after : List Tree}
    (hkind : v.node.kind = "jsx_attribute")
    (hchildren : v.node.namedChildren = name :: (before ++ expression :: after))
    (hname : name.lexeme = "style") (hbefore : ∀ c ∈ before, c.kind ≠ "jsx_expression")
    (hexpression : expression.kind = "jsx_expression")
    (hstyle : expression.namedChildren.head? = some style) (hobject : style.kind = "object") :
    Holds v [before.length + 1, 0] style
  /-- The object is an argument of a call. -/
  | argument {parent call : Tree} {rest : List Tree} (hkind : v.node.kind = "object")
    (hancestors : v.ancestors = parent :: call :: rest) (hparent : parent.kind = "arguments")
    (hcall : call.kind = "call_expression") : Holds v [] v.node

/-- A style, with the address of its object. -/
def StyleAt (root : Tree) (address : List Nat) (style : Tree) : Prop :=
  ∃ a v steps, (⟨root, []⟩ : Visit).follow? a = some v ∧ Holds v steps style ∧ address = a ++ steps

/-- The way down from a node of the rule to the style that it holds or is. -/
def stepsToStyle (v : Visit) : List Nat :=
  if v.node.kind == "jsx_attribute" then
    [(v.node.namedChildren.tail.takeWhile fun c => c.kind != "jsx_expression").length + 1, 0]
  else []

theorem styleOf?_eq_some_iff {holder style : Tree} : styleOf? holder = some style ↔
    ∃ name before expression after,
      holder.namedChildren = name :: (before ++ expression :: after) ∧ name.lexeme = "style" ∧
        (∀ c ∈ before, c.kind ≠ "jsx_expression") ∧ expression.kind = "jsx_expression" ∧
          expression.namedChildren.head? = some style ∧ style.kind = "object" := by
  constructor
  · intro h
    rw [styleOf?] at h
    split at h
    · cases h
    · rename_i name rest hchildren
      split at h
      · cases h
      · rename_i hname
        obtain ⟨expression, hfind, hheld⟩ := Option.bind_eq_some_iff.1 h
        obtain ⟨inner, hinner, hkept⟩ := Option.bind_eq_some_iff.1 hheld
        obtain ⟨hexpression, before, after, rfl, hbefore⟩ := List.find?_eq_some_iff_append.1 hfind
        split at hkept
        · rename_i hobject
          cases hkept
          exact ⟨name, before, expression, after, hchildren, by simpa using hname,
            fun c hc => by simpa using hbefore c hc, by simpa using hexpression, hinner,
            by simpa using hobject⟩
        · cases hkept
  · rintro ⟨name, before, expression, after, hchildren, hname, hbefore, hexpression, hstyle,
      hobject⟩
    have hfind : (before ++ expression :: after).find? (fun c => c.kind == "jsx_expression") =
        some expression := by
      rw [List.find?_eq_some_iff_append]
      refine ⟨by simpa using hexpression, before, after, rfl, fun c hc => ?_⟩
      simpa using hbefore c hc
    simp only [styleOf?, hchildren, hname, bne_self_eq_false, Bool.false_eq_true, if_false, hfind,
      Option.bind_some, hstyle, hobject, beq_self_eq_true, if_true]

theorem isArgument_iff {v : Visit} : isArgument v = true ↔ ∃ parent call rest,
    v.ancestors = parent :: call :: rest ∧ parent.kind = "arguments" ∧
      call.kind = "call_expression" := by
  rw [isArgument]
  constructor
  · intro h
    split at h
    · rename_i parent call rest hancestors
      rw [Bool.and_eq_true, beq_iff_eq, beq_iff_eq] at h
      exact ⟨parent, call, rest, hancestors, h⟩
    · cases h
  · rintro ⟨parent, call, rest, hancestors, hparent, hcall⟩
    simp [hancestors, hparent, hcall]

theorem stepsToStyle_of_before {v : Visit} {name expression : Tree} {before after : List Tree}
    (hkind : v.node.kind = "jsx_attribute")
    (hchildren : v.node.namedChildren = name :: (before ++ expression :: after))
    (hbefore : ∀ c ∈ before, c.kind ≠ "jsx_expression")
    (hexpression : expression.kind = "jsx_expression") :
    stepsToStyle v = [before.length + 1, 0] := by
  have hfront : ∀ c ∈ before, (c.kind != "jsx_expression") = true := fun c hc =>
    bne_iff_ne.2 (hbefore c hc)
  have hstop : (expression :: after).takeWhile (fun c => c.kind != "jsx_expression") = [] := by
    simp [hexpression]
  rw [stepsToStyle, if_pos (beq_iff_eq.2 hkind), hchildren, List.tail_cons,
    List.takeWhile_append_of_pos hfront, hstop, List.append_nil]

/-- The rule looks at the nodes that hold or are a style, and at the right one. -/
theorem holds_iff {v : Visit} {steps : List Nat} {style : Tree} : Holds v steps style ↔
    v.node.kind ∈ rule.kinds ∧ style? v = some style ∧ steps = stepsToStyle v := by
  constructor
  · rintro (⟨hkind, hchildren, hname, hbefore, hexpression, hstyle, hobject⟩ |
      ⟨hkind, hancestors, hparent, hcall⟩)
    · refine ⟨by simp [hkind, rule, Rule.ofNodes], ?_,
        (stepsToStyle_of_before hkind hchildren hbefore hexpression).symm⟩
      rw [style?, if_pos (beq_iff_eq.2 hkind), styleOf?_eq_some_iff]
      exact ⟨_, _, _, _, hchildren, hname, hbefore, hexpression, hstyle, hobject⟩
    · have hargument := isArgument_iff.2 ⟨_, _, _, hancestors, hparent, hcall⟩
      refine ⟨by simp [hkind, rule, Rule.ofNodes], ?_, ?_⟩
      · simp [style?, hkind, hargument]
      · simp [stepsToStyle, hkind]
  · rintro ⟨hkind, hstyle, rfl⟩
    rw [style?] at hstyle
    split at hstyle
    · rename_i hattribute
      rw [beq_iff_eq] at hattribute
      obtain ⟨name, before, expression, after, hchildren, hname, hbefore, hexpression, hinner,
        hobject⟩ := styleOf?_eq_some_iff.1 hstyle
      rw [stepsToStyle_of_before hattribute hchildren hbefore hexpression]
      exact .held hattribute hchildren hname hbefore hexpression hinner hobject
    · rename_i hattribute
      split at hstyle
      · rename_i hargument
        cases hstyle
        rw [stepsToStyle, if_neg hattribute]
        obtain ⟨parent, call, rest, hancestors, hparent, hcall⟩ := isArgument_iff.1 hargument
        -- of the two kinds that the rule subscribes to, the other one is left
        have hobject : v.node.kind = "object" := by
          simpa [rule, Rule.ofNodes, beq_iff_eq.not.1 hattribute] using hkind
        exact .argument hobject hancestors hparent hcall
      · cases hstyle

/-! ## One way to a style -/

/-- The parent of a style tells how far the node is that holds it. -/
theorem Holds.exists_parent {v : Visit} {steps : List Nat} {style : Tree}
    (h : Holds v steps style) : ∃ parent rest, v.follow? steps = some ⟨style, parent :: rest⟩ ∧
      (parent.kind = "jsx_expression" ∧ steps.length = 2 ∨
        parent.kind = "arguments" ∧ steps.length = 0) := by
  cases h with
  | @held name expression style before after hkind hchildren _ _ hexpression hstyle _ =>
    have hdown : v.descend[before.length + 1]? = some ⟨expression, v.node :: v.ancestors⟩ := by
      simp [Visit.descend, hchildren]
    have hinner : (⟨expression, v.node :: v.ancestors⟩ : Visit).descend[0]? =
        some ⟨style, expression :: v.node :: v.ancestors⟩ := by
      simp [Visit.descend, ← List.head?_eq_getElem?, hstyle]
    refine ⟨expression, v.node :: v.ancestors, ?_, .inl ⟨hexpression, rfl⟩⟩
    rw [Visit.follow?, hdown, Option.bind_some, Visit.follow?, hinner]
    rfl
  | argument hkind hancestors hparent hcall =>
    exact ⟨_, _, by rw [Visit.follow?, ← hancestors], .inr ⟨hparent, rfl⟩⟩

/-- **One way to a style.** Two nodes from which one style is come to are the same. -/
theorem origin_unique {root : Tree} {a a' steps steps' : List Nat} {v v' : Visit}
    {style style' : Tree} (hnode : (⟨root, []⟩ : Visit).follow? a = some v)
    (hholds : Holds v steps style) (hnode' : (⟨root, []⟩ : Visit).follow? a' = some v')
    (hholds' : Holds v' steps' style') (haddress : a ++ steps = a' ++ steps') :
    a = a' ∧ v = v' := by
  obtain ⟨parent, rest, hfollow, hparent⟩ := hholds.exists_parent
  obtain ⟨parent', rest', hfollow', hparent'⟩ := hholds'.exists_parent
  have hsame : v.follow? steps = v'.follow? steps' := by
    have hroot := congrArg (⟨root, []⟩ : Visit).follow? haddress
    rwa [Visit.follow?_append, Visit.follow?_append, hnode, hnode'] at hroot
  rw [hfollow, hfollow', Option.some.injEq, Visit.mk.injEq, List.cons.injEq] at hsame
  obtain ⟨-, rfl, -⟩ := hsame
  -- the one parent is an expression or arguments, so both ways are equally long
  have hlength : steps.length = steps'.length := by
    rcases hparent with ⟨hkind, hlength⟩ | ⟨hkind, hlength⟩
    · rcases hparent' with ⟨-, hlength'⟩ | ⟨hkind', -⟩
      · exact hlength.trans hlength'.symm
      · exact absurd (hkind.symm.trans hkind') (by decide)
    · rcases hparent' with ⟨hkind', -⟩ | ⟨-, hlength'⟩
      · exact absurd (hkind.symm.trans hkind') (by decide)
      · exact hlength.trans hlength'.symm
  obtain ⟨rfl, -⟩ := List.append_inj' haddress hlength
  exact ⟨rfl, Option.some.inj (hnode.symm.trans hnode')⟩

/-! ## Literal pairs -/

/-- The text of a key that is written out. -/
inductive IsName (key : Tree) : String → Prop
  | identifier (h : key.kind ∈ ["identifier", "property_identifier"]) : IsName key key.lexeme
  | string (h : key.kind = "string") : IsName key key.unquoted

/-- A pair of a name and a text that is a literal value, and no exempt one. -/
structure IsLiteralPair (pair : Tree) (property value : String) : Prop where
  kind : pair.kind = "pair"
  hasKey : ∃ key, pair.childInRole? "key" = some key ∧ IsName key property
  hasValue : ∃ v, pair.childInRole? "value" = some v ∧ v.kind = "string" ∧ v.unquoted = value
  ne_empty : value ≠ ""
  not_exempt : isExempt value = false

theorem propertyName?_eq_some_iff {key : Tree} {property : String} :
    propertyName? key = some property ↔ IsName key property := by
  rw [propertyName?]
  constructor
  · intro h
    split at h
    · rename_i hkind
      cases h
      exact .identifier (by simpa [or_comm] using hkind)
    · split at h
      · rename_i hkind
        cases h
        exact .string (beq_iff_eq.1 hkind)
      · cases h
  · rintro (hkind | hkind)
    · rw [if_pos (by simpa [or_comm] using hkind)]
    · rw [hkind]
      rfl

theorem literalPair?_eq_some_iff {pair : Tree} {property value : String} :
    literalPair? pair = some (property, value) ↔ IsLiteralPair pair property value := by
  rw [literalPair?]
  constructor
  · intro h
    split at h
    · cases h
    · rename_i hkind
      split at h
      · rename_i name v hkey hv
        obtain ⟨key, hrole, hname⟩ := Option.bind_eq_some_iff.1 hkey
        split at h
        · cases h
        · rename_i hopen
          cases h
          simp only [Bool.or_eq_true, not_or, bne_iff_ne, ne_eq, not_not, beq_iff_eq,
            Bool.not_eq_true] at hopen
          exact ⟨by simpa using hkind, ⟨key, hrole, propertyName?_eq_some_iff.1 hname⟩,
            ⟨v, hv, hopen.1.1, rfl⟩, hopen.1.2, hopen.2⟩
      · cases h
  · rintro ⟨hkind, ⟨key, hrole, hname⟩, ⟨v, hv, hstring, rfl⟩, hne, hexempt⟩
    have hkey : (pair.childInRole? "key").bind propertyName? = some property := by
      rw [hrole, Option.bind_some, propertyName?_eq_some_iff.2 hname]
    simp [hkind, hkey, hv, hstring, hne, hexempt]

/-! ## Marks -/

/-- A literal value in a file: the address of the style, the number of the pair among the named
children of the style, and the family. -/
structure Mark where
  style : List Nat
  pair : Nat
  family : Family
deriving DecidableEq, Repr

/-- A mark shows a literal value, with the finding that reports it. -/
inductive Shows (root : Tree) : Mark → Finding → Prop
  | mk {address : List Nat} {style pair : Tree} {i : Nat} {property value : String}
    {family : Family} (hstyle : StyleAt root address style)
    (hpair : style.namedChildren[i]? = some pair) (hliteral : IsLiteralPair pair property value)
    (hcovers : family.covers property value = true) :
    Shows root ⟨address, i, family⟩
      ⟨family.messageId, pair.start, property ++ ": " ++ family.token, [("value", .text value)]⟩

/-- What is found in the pairs of a style, with the marks. -/
def pairReports (address : List Nat) (pair : Tree) (i : Nat) : List (Mark × Finding) :=
  match literalPair? pair with
  | none => []
  | some (property, value) =>
    (Family.all.filter fun f => f.covers property value).map fun f => (⟨address, i, f⟩,
      ⟨f.messageId, pair.start, property ++ ": " ++ f.token, [("value", .text value)]⟩)

def styleReports (address : List Nat) (style : Tree) : List (Mark × Finding) :=
  style.namedChildren.zipIdx.flatMap fun entry => pairReports address entry.1 entry.2

def nodeReports (a : List Nat) (v : Visit) : List (Mark × Finding) :=
  match style? v with
  | none => []
  | some style => styleReports (a ++ stepsToStyle v) style

/-- What is found in a file, with the marks. -/
def reports (root : Tree) : List (Mark × Finding) :=
  (root.located.filter fun entry => rule.kinds.contains entry.2.node.kind).flatMap fun entry =>
    nodeReports entry.1 entry.2

theorem mem_pairReports {address : List Nat} {pair : Tree} {i : Nat} {m : Mark} {f : Finding} :
    (m, f) ∈ pairReports address pair i ↔ ∃ property value family,
      IsLiteralPair pair property value ∧ family.covers property value = true ∧
        m = ⟨address, i, family⟩ ∧ f = ⟨family.messageId, pair.start,
          property ++ ": " ++ family.token, [("value", .text value)]⟩ := by
  have hall : ∀ f : Family, f ∈ Family.all := fun f => by cases f <;> decide
  simp only [← literalPair?_eq_some_iff]
  rw [pairReports]
  split
  · rename_i hnone
    simp [hnone]
  · rename_i property value hpair
    simp only [hpair, List.mem_map, List.mem_filter, hall, true_and, Prod.mk.injEq,
      Option.some.injEq]
    constructor
    · rintro ⟨family, hcovers, rfl, rfl⟩
      exact ⟨property, value, family, ⟨rfl, rfl⟩, hcovers, rfl, rfl⟩
    · rintro ⟨_, _, family, ⟨rfl, rfl⟩, hcovers, rfl, rfl⟩
      exact ⟨family, hcovers, rfl, rfl⟩

theorem map_snd_pairReports (address : List Nat) (pair : Tree) (i : Nat) :
    (pairReports address pair i).map Prod.snd = checkMember pair := by
  rw [pairReports, checkMember]
  cases literalPair? pair with
  | none => rfl
  | some found => exact List.map_map

theorem map_snd_styleReports (address : List Nat) (style : Tree) :
    (styleReports address style).map Prod.snd = checkStyle style := by
  have hpairs : style.namedChildren.zipIdx.map Prod.fst = style.namedChildren :=
    List.zipIdx_map_fst 0 _
  rw [styleReports, List.map_flatMap, checkStyle]
  conv_rhs => rw [← hpairs, List.flatMap_map]
  simp only [map_snd_pairReports]

theorem findings_eq_map_reports (root : Tree) (ctx : FileContext) :
    (traceOf [rule] ctx root).flatMap Call.findings =
      (reports root).map fun report => (rule, report.2) := by
  have hnode : ∀ a v, (nodeReports a v).map (fun report => (rule, report.2)) =
      ((style? v).elim [] checkStyle).map fun f => (rule, f) := by
    intro a v
    rw [nodeReports]
    cases style? v with
    | none => rfl
    | some style =>
      rw [Option.elim_some, ← map_snd_styleReports (a ++ stepsToStyle v) style, List.map_map]
      rfl
  have hrule : rule = .ofNodes info rule.kinds fun v _ => (style? v).elim [] checkStyle := by
    refine congrArg (Rule.ofNodes info _) ?_
    funext v _
    cases style? v <;> rfl
  have hfound := Rule.findings_ofNodes info rule.kinds
    (fun v _ => (style? v).elim [] checkStyle) ctx root
  rw [← hrule, ← root.map_snd_located, List.filter_map, List.flatMap_map] at hfound
  rw [hfound, reports, List.map_flatMap]
  simp only [hnode]
  rfl

theorem mem_nodeReports {a : List Nat} {v : Visit} {m : Mark} {f : Finding} :
    (m, f) ∈ nodeReports a v ↔ ∃ style, style? v = some style ∧ ∃ pair i,
      style.namedChildren[i]? = some pair ∧ (m, f) ∈ pairReports (a ++ stepsToStyle v) pair i := by
  rw [nodeReports]
  cases style? v with
  | none => simp
  | some style =>
    simp only [styleReports, List.mem_flatMap, Prod.exists, List.mk_mem_zipIdx_iff_getElem?,
      Option.some.injEq, exists_eq_left']

/-- A file has what its marks show. -/
theorem mem_reports {root : Tree} {m : Mark} {f : Finding} :
    (m, f) ∈ reports root ↔ Shows root m f := by
  rw [reports, List.mem_flatMap]
  constructor
  · rintro ⟨⟨a, v⟩, hentry, hreport⟩
    obtain ⟨hlocated, hkind⟩ := List.mem_filter.1 hentry
    obtain ⟨style, hstyle, pair, i, hpair, hreport⟩ := mem_nodeReports.1 hreport
    obtain ⟨property, value, family, hliteral, hcovers, rfl, rfl⟩ := mem_pairReports.1 hreport
    have hholds := holds_iff.2 ⟨List.contains_iff_mem.1 hkind, hstyle, rfl⟩
    exact .mk ⟨a, v, _, Tree.mem_located.1 hlocated, hholds, rfl⟩ hpair hliteral hcovers
  · rintro ⟨⟨a, v, steps, hnode, hholds, rfl⟩, hpair, hliteral, hcovers⟩
    obtain ⟨hkind, hstyle, rfl⟩ := holds_iff.1 hholds
    refine ⟨(a, v), List.mem_filter.2 ⟨Tree.mem_located.2 hnode, List.contains_iff_mem.2 hkind⟩, ?_⟩
    exact mem_nodeReports.2
      ⟨_, hstyle, _, _, hpair, mem_pairReports.2 ⟨_, _, _, hliteral, hcovers, rfl, rfl⟩⟩

/-! ## No mark twice -/

theorem nodup_pairReports (address : List Nat) (pair : Tree) (i : Nat) :
    ((pairReports address pair i).map Prod.fst).Nodup := by
  have hall : Family.all.Nodup := by decide
  rw [pairReports]
  split
  · exact List.nodup_nil
  · rw [List.map_map]
    exact (hall.filter _).map fun f g heq => congrArg Mark.family heq

theorem mark_of_mem_pairReports {address : List Nat} {pair : Tree} {i : Nat} {m : Mark}
    (h : m ∈ (pairReports address pair i).map Prod.fst) : m.style = address ∧ m.pair = i := by
  obtain ⟨⟨m, f⟩, hreport, rfl⟩ := List.mem_map.1 h
  obtain ⟨property, value, family, -, -, rfl, -⟩ := mem_pairReports.1 hreport
  exact ⟨rfl, rfl⟩

theorem nodup_styleReports (address : List Nat) (style : Tree) :
    ((styleReports address style).map Prod.fst).Nodup := by
  have hnumbers : style.namedChildren.zipIdx.Pairwise fun e e' => e.2 ≠ e'.2 := by
    rw [← List.pairwise_map, List.zipIdx_map_snd]
    exact List.nodup_range'
  rw [styleReports, List.map_flatMap, List.nodup_flatMap]
  refine ⟨fun e _ => nodup_pairReports address e.1 e.2, hnumbers.imp fun hne m hm hm' => hne ?_⟩
  exact (mark_of_mem_pairReports hm).2.symm.trans (mark_of_mem_pairReports hm').2

theorem mark_of_mem_nodeReports {a : List Nat} {v : Visit} {m : Mark}
    (h : m ∈ (nodeReports a v).map Prod.fst) :
    m.style = a ++ stepsToStyle v ∧ ∃ style, style? v = some style := by
  obtain ⟨⟨m, f⟩, hreport, rfl⟩ := List.mem_map.1 h
  obtain ⟨style, hstyle, pair, i, -, hpair⟩ := mem_nodeReports.1 hreport
  exact ⟨(mark_of_mem_pairReports (List.mem_map_of_mem hpair)).1, style, hstyle⟩

/-- Different nodes of the rule have different marks, for they have different styles. -/
theorem nodup_reports (root : Tree) : ((reports root).map Prod.fst).Nodup := by
  rw [reports, List.map_flatMap, List.nodup_flatMap]
  refine ⟨fun e _ => ?_, (root.nodup_located.filter _).imp_of_mem fun {e e'} he he' hne m hm hm' =>
    hne ?_⟩
  · rw [nodeReports]
    split
    · exact List.nodup_nil
    · exact nodup_styleReports _ _
  · obtain ⟨hlocated, hkind⟩ := List.mem_filter.1 he
    obtain ⟨hlocated', hkind'⟩ := List.mem_filter.1 he'
    obtain ⟨haddress, style, hstyle⟩ := mark_of_mem_nodeReports hm
    obtain ⟨haddress', style', hstyle'⟩ := mark_of_mem_nodeReports hm'
    obtain ⟨ha, hv⟩ := origin_unique (Tree.mem_located.1 hlocated)
      (holds_iff.2 ⟨List.contains_iff_mem.1 hkind, hstyle, rfl⟩) (Tree.mem_located.1 hlocated')
      (holds_iff.2 ⟨List.contains_iff_mem.1 hkind', hstyle', rfl⟩) (haddress.symm.trans haddress')
    exact Prod.ext ha hv

/-- **Reported once.** Among the findings over a file, whatever other rules there are, those on
literal styles belong to different marks, and every mark that shows a literal value has one. -/
theorem literal_styles_reported_once {own : String → Set String} {rules : List Rule}
    (h : Independent own rules) (hrule : rule ∈ rules) (ctx : FileContext) (root : Tree) :
    ∃ reports : List (Mark × Finding),
      ((traceOf rules ctx root).flatMap Call.findings).filter
          (fun found => found.1.info.id == info.id) =
        reports.map (fun report => (rule, report.2)) ∧
      (reports.map Prod.fst).Nodup ∧
      ∀ m f, (m, f) ∈ reports ↔ Shows root m f := by
  refine ⟨reports root, ?_, nodup_reports root, fun m f => mem_reports⟩
  have hcalls : (traceOf rules ctx root).filter (fun c => c.rule.info.id == info.id) =
      traceOf [rule] ctx root := traceFile_filter_id h hrule ctx (some root)
  rw [← findings_eq_map_reports root ctx, ← hcalls]
  exact findings_filter (· == info.id) _

/-! ## A file with styles -/

/-- A pair with a text. -/
def textPair (line : Nat) (property value : String) : Tree :=
  .branch "pair" "" ⟨line, 0⟩
    [(Tree.leaf "property_identifier" true property ⟨line, 0⟩).inRole "key",
      (Tree.leaf "string" true value ⟨line, 0⟩).inRole "value"]

/-- A style in an attribute, and one in a call that has an object of its own. -/
def styledCard : Tree :=
  .branch programKind "" .origin
    [.branch "jsx_attribute" "" .origin
      [.leaf "property_identifier" true "style" .origin,
        .branch "jsx_expression" "" .origin
          [.branch "object" "" .origin
            [textPair 1 "color" "'#fff'", textPair 2 "gap" "'var(--gap)'"]]],
      .branch "call_expression" "" .origin
        [.leaf "identifier" true "css" .origin,
          .branch "arguments" "" .origin
            [.branch "object" "" .origin
              [textPair 4 "paddingAndfontSize" "'4px'",
                .branch "pair" "" ⟨5, 0⟩
                  [(Tree.leaf "property_identifier" true "hover" ⟨5, 0⟩).inRole "key",
                    (Tree.branch "object" "" ⟨5, 0⟩ [textPair 5 "zIndex" "'10'"]).inRole
                      "value"]]]]]

/-- Both styles are reported, a pair of two families twice and the object inside not at all. -/
theorem literal_styles_reported_once_card :
    ∃ reports : List (Mark × Finding),
      reports.map (fun report => report.2.messageId) =
        ["literalColor", "literalSpacing", "literalTypography"] ∧
      (reports.map Prod.fst).Nodup ∧ ∀ m f, (m, f) ∈ reports ↔ Shows styledCard m f := by
  have hrules : Config.standard.enabledRules =
      .ok (Builtin.all.map ConfiguredRule.standard) := rfl
  have hindependent : Independent Builtin.counters Shop.engine.rules := Config.independent hrules
  have hmem : Builtin.standard .literalStyle ∈ Shop.engine.rules :=
    List.mem_map_of_mem (by decide)
  obtain ⟨reports, hfound, hnodup, hshows⟩ :=
    literal_styles_reported_once hindependent hmem Shop.cartFile styledCard
  have hids : (((traceOf Shop.engine.rules Shop.cartFile styledCard).flatMap
      Call.findings).filter fun found => found.1.info.id == info.id).map
        (fun found => found.2.messageId) =
      ["literalColor", "literalSpacing", "literalTypography"] := by decide +kernel
  rw [hfound, List.map_map] at hids
  exact ⟨reports, hids, hnodup, hshows⟩

end SliceLint.LiteralStyle
