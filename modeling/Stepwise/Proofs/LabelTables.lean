import Stepwise.Proofs.DocumentOrder

/-!
# Label tables

Linking builds a table of labels for the main unit and for every function, from a listing of its
statements. **A table has a name exactly if a label of that name lies in the unit, and leads to the
first of them in the text; every later one is warned of, once, with its line; and of several
functions of one name the table of functions has the last, with its own parameters, body and
labels** (`label_tables_exact`).

Both tables are read off ordered lists, so what is found first, or last, is first or last in the
text (`first_of_find?`).

## Layout

The words of the statement are those of `Proofs/DocumentOrder`: `Lies`, `Precedes`, `Declares` and
`Earlier` say where something stands without walking the script. `FirstLabel`, `Repeats` and
`LastDeclared` add what the tables are about. The listings that linking uses are proved to have
these things, one section for each.

Two things are in the way and have a section each. The warnings of a program are one list, of which
those about labels are a part; that no others are among them is a walk through the whole syntax,
since escapes are warned of in all strings. And linking drops comments, so the positions in a linked
script are not those of the script. Labels and functions are the same in both, but for the bodies of
functions, which are linked as well.
-/

namespace Stepwise

open StmtPath

theorem first_of_find? {α : Type} {R : α → α → Prop} {p : α → Bool} {l : List α} {a : α}
    (ordered : l.Pairwise R) (h : l.find? p = some a) :
    a ∈ l ∧ p a = true ∧ ∀ b ∈ l, p b = true → b = a ∨ R a b := by
  obtain ⟨hp, before, after, rfl, hbefore⟩ := List.find?_eq_some_iff_append.mp h
  refine ⟨List.mem_append_right _ List.mem_cons_self, hp, ?_⟩
  intro b hb hpb
  obtain hb | hb := List.mem_append.mp hb
  · have hnot := hbefore b hb
    rw [hpb] at hnot
    cases hnot
  · obtain rfl | hb := List.mem_cons.mp hb
    · exact .inl rfl
    · have hafter := (List.pairwise_append.mp ordered).2.1
      exact .inr ((List.pairwise_cons.mp hafter).1 b hb)

/-! ## The labels of a unit -/

namespace Block

/-- The first label of a name in the text of a unit. There is at most one, since the order of the
text is asymmetric. -/
structure FirstLabel (b : Block) (name : String) (target : StmtPath) : Prop where
  lies : ∃ line, b.Lies target (.label name line)
  first : ∀ place line, b.Lies place (.label name line) →
    place = target ∨ target.Precedes place

/-- The labels of a unit whose name occurs before, in the order of the text. -/
structure Repeats (b : Block) (sites : List LabelSite) : Prop where
  ordered : sites.Pairwise fun site site' => site.place.Precedes site'.place
  mem_iff : ∀ site, site ∈ sites ↔
    b.Lies site.place (.label site.name site.line) ∧
      ∃ place line, b.Lies place (.label site.name line) ∧ place.Precedes site.place

theorem mem_labelSites {b : Block} {site : LabelSite} :
    site ∈ b.labelSites ↔ b.Lies site.place (.label site.name site.line) := by
  constructor
  · intro h
    exact lies_iff.mpr (labelSites_stmtAt? h)
  · intro h
    exact List.mem_filterMap.mpr ⟨_, mem_statements_iff.mpr h, rfl⟩

theorem pairwise_labelSites (b : Block) :
    b.labelSites.Pairwise fun site site' => site.place.Precedes site'.place := by
  have hplace : ∀ {place : StmtPath} {s : Stmt} {site : LabelSite}, s.labelSite? place =
      some site →
      site.place = place := by
    intro place s site h
    cases s with
    | label name line =>
      cases h
      rfl
    | _ => cases h
  refine List.Pairwise.filterMap _ ?_ (b.pairwise_statements [])
  intro entry entry' hprecedes site hsite site' hsite'
  rw [hplace hsite, hplace hsite']
  exact hprecedes

end Block

namespace LabelTable

/-- A name that the table has is not put there again, so the first site of a name counts. -/
theorem get?_foldl_eq (name : String) (sites : List LabelSite) (table : LabelTable) :
    Assoc.get? name
      (sites.foldl
        (fun table site =>
          if Assoc.contains site.name table then table else Assoc.put site.name site.place table)
        table) =
      (Assoc.get? name table).or ((sites.find? fun site => site.name == name).map (·.place)) := by
  induction sites generalizing table with
  | nil => exact Option.or_none.symm
  | cons site rest ih =>
    rw [List.foldl_cons, ih]
    by_cases hname : site.name = name
    · subst hname
      cases hcontains : Assoc.get? site.name table with
      | some place => simp [Assoc.contains, hcontains]
      | none => simp [Assoc.contains, hcontains, Assoc.get?_put]
    · have hskip : (site :: rest).find? (fun site => site.name == name) =
          rest.find? fun site => site.name == name := List.find?_cons_of_neg (by simpa using hname)
      rw [hskip]
      split
      · rfl
      · rw [Assoc.get?_put, if_neg hname]

theorem get?_ofSites (name : String) (sites : List LabelSite) :
    Assoc.get? name (ofSites sites) =
      (sites.find? fun site => site.name == name).map (·.place) := by
  rw [ofSites, get?_foldl_eq]
  rfl

/-- A table has the names of the labels that lie in the unit, and no others. -/
theorem isSome_get?_ofSites {b : Block} {name : String} :
    (Assoc.get? name (ofSites b.labelSites)).isSome ↔
      ∃ place line, b.Lies place (.label name line) := by
  rw [get?_ofSites, Option.isSome_map, List.find?_isSome]
  constructor
  · rintro ⟨site, hmem, hname⟩
    have hlies := Block.mem_labelSites.mp hmem
    rw [eq_of_beq hname] at hlies
    exact ⟨_, _, hlies⟩
  · rintro ⟨place, line, hlies⟩
    exact ⟨⟨name, place, line⟩, Block.mem_labelSites.mpr hlies, beq_self_eq_true name⟩

/-- A table leads to the first label of a name, and to nothing else. -/
theorem get?_ofSites_eq_some {b : Block} {name : String} {target : StmtPath} :
    Assoc.get? name (ofSites b.labelSites) = some target ↔ b.FirstLabel name target := by
  have hfirst : ∀ {target}, Assoc.get? name (ofSites b.labelSites) = some target →
      b.FirstLabel name target := by
    intro target h
    rw [get?_ofSites] at h
    obtain ⟨site, hfind, rfl⟩ := Option.map_eq_some_iff.mp h
    obtain ⟨hmem, hname, hfirst⟩ := first_of_find? b.pairwise_labelSites hfind
    have hlies := Block.mem_labelSites.mp hmem
    rw [eq_of_beq hname] at hlies
    refine ⟨⟨_, hlies⟩, ?_⟩
    intro place line hplace
    obtain heq | hprecedes :=
      hfirst ⟨name, place, line⟩ (Block.mem_labelSites.mpr hplace) (beq_self_eq_true name)
    · exact .inl (congrArg LabelSite.place heq)
    · exact .inr hprecedes
  refine ⟨hfirst, ?_⟩
  intro h
  obtain ⟨line, hlies⟩ := h.lies
  obtain ⟨target', htarget'⟩ :=
    Option.isSome_iff_exists.mp (isSome_get?_ofSites.mpr ⟨target, line, hlies⟩)
  -- the one that is found is first as well, so it is the same
  have h' := hfirst htarget'
  obtain ⟨line', hlies'⟩ := h'.lies
  obtain rfl | hprecedes := h.first _ _ hlies'
  · exact htarget'
  · obtain rfl | hback := h'.first _ _ hlies
    · exact htarget'
    · exact absurd hback hprecedes.asymm

/-! ## Labels that occur again -/

/-- The labels whose name was already seen. These are the sites behind the warnings, which have only
names and lines. -/
def repeated (seen : List String) : List LabelSite → List LabelSite
  | [] => []
  | site :: rest =>
    if seen.contains site.name then site :: repeated seen rest
    else repeated (site.name :: seen) rest

theorem duplicates_eq (seen : List String) (sites : List LabelSite) :
    duplicates seen sites = (repeated seen sites).map fun site =>
      .duplicateLabel site.line site.name := by
  induction sites generalizing seen with
  | nil => rfl
  | cons site rest ih =>
    rw [duplicates, repeated]
    split
    · rw [ih, List.map_cons]
    · exact ih _

theorem repeated_sublist (seen : List String) (sites : List LabelSite) :
    (repeated seen sites).Sublist sites := by
  induction sites generalizing seen with
  | nil => exact List.Sublist.slnil
  | cons site rest ih =>
    rw [repeated]
    split
    · exact (ih seen).cons_cons site
    · exact (ih _).cons site

/-- A label is repeated if its name was seen or another of that name comes before it in the text. In
an ordered list, coming before in the list and in the text is the same; the induction is over the
list, and the names seen grow with it. -/
theorem mem_repeated {seen : List String} {sites : List LabelSite}
    (ordered : sites.Pairwise fun site site' => site.place.Precedes site'.place)
    {site : LabelSite} :
    site ∈ repeated seen sites ↔
      site ∈ sites ∧ (site.name ∈ seen ∨
        ∃ other ∈ sites, other.name = site.name ∧ other.place.Precedes site.place) := by
  induction sites generalizing seen with
  | nil => exact Iff.intro (fun h => by cases h) (fun h => by cases h.1)
  | cons first rest ih =>
    obtain ⟨hfirst, hrest⟩ := List.pairwise_cons.mp ordered
    -- nothing in the list comes before its first element
    have hleast : ∀ other ∈ first :: rest, ¬ other.place.Precedes first.place := by
      intro other hother
      obtain rfl | hother := List.mem_cons.mp hother
      · exact Precedes.irrefl _
      · exact (hfirst other hother).asymm
    rw [repeated]
    by_cases hseen : first.name ∈ seen
    · rw [if_pos (by simpa using hseen), List.mem_cons, ih hrest]
      constructor
      · rintro (rfl | ⟨hmem, hname⟩)
        · exact ⟨List.mem_cons_self, .inl hseen⟩
        · refine ⟨List.mem_cons_of_mem _ hmem, hname.imp_right ?_⟩
          rintro ⟨other, hother, hname, hprecedes⟩
          exact ⟨other, List.mem_cons_of_mem _ hother, hname, hprecedes⟩
      · rintro ⟨hmem, hname⟩
        obtain rfl | hmem := List.mem_cons.mp hmem
        · exact .inl rfl
        · refine .inr ⟨hmem, ?_⟩
          obtain hname | ⟨other, hother, hname, hprecedes⟩ := hname
          · exact .inl hname
          · obtain rfl | hother := List.mem_cons.mp hother
            · exact .inl (hname ▸ hseen)
            · exact .inr ⟨other, hother, hname, hprecedes⟩
    · rw [if_neg (by simpa using hseen), ih hrest]
      constructor
      · rintro ⟨hmem, hname⟩
        refine ⟨List.mem_cons_of_mem _ hmem, ?_⟩
        obtain hname | ⟨other, hother, hname, hprecedes⟩ := hname
        · obtain heq | hname := List.mem_cons.mp hname
          · exact .inr ⟨first, List.mem_cons_self, heq.symm, hfirst site hmem⟩
          · exact .inl hname
        · exact .inr ⟨other, List.mem_cons_of_mem _ hother, hname, hprecedes⟩
      · rintro ⟨hmem, hname⟩
        obtain rfl | hmem := List.mem_cons.mp hmem
        · obtain hname | ⟨other, hother, -, hprecedes⟩ := hname
          · exact absurd hname hseen
          · exact absurd hprecedes (hleast other hother)
        · refine ⟨hmem, ?_⟩
          obtain hname | ⟨other, hother, hname, hprecedes⟩ := hname
          · exact .inl (List.mem_cons_of_mem _ hname)
          · obtain rfl | hother := List.mem_cons.mp hother
            · exact .inl (hname ▸ List.mem_cons_self)
            · exact .inr ⟨other, hother, hname, hprecedes⟩

theorem repeats_repeated (b : Block) : b.Repeats (repeated [] b.labelSites) where
  ordered := b.pairwise_labelSites.sublist (repeated_sublist [] b.labelSites)
  mem_iff := by
    intro site
    rw [mem_repeated b.pairwise_labelSites, Block.mem_labelSites]
    constructor
    · rintro ⟨hlies, hseen | ⟨other, hother, hname, hprecedes⟩⟩
      · cases hseen
      · exact ⟨hlies, other.place, other.line, hname ▸ Block.mem_labelSites.mp hother,
          hprecedes⟩
    · rintro ⟨hlies, place, line, hother, hprecedes⟩
      exact ⟨hlies,
        .inr ⟨⟨site.name, place, line⟩, Block.mem_labelSites.mpr hother, rfl, hprecedes⟩⟩

end LabelTable

/-! ## The table of functions

Functions are collected from all of the script, those inside of other functions included, into one
table. Later entries replace earlier ones. -/

/-- The last function of a name that is declared in the text of a block. A function inside the body
of another comes behind it. -/
structure Block.LastDeclared (b : Block) (name : String) (route : List StmtPath)
    (d : FunctionDecl) : Prop where
  declares : b.Declares route d
  named : d.name = name
  last : ∀ route' d', b.Declares route' d' → d'.name = name →
    route' = route ∨ Earlier route' route

theorem Block.LastDeclared.eq {b : Block} {name : String} {route route' : List StmtPath}
    {d d' : FunctionDecl} (h : b.LastDeclared name route d) (h' : b.LastDeclared name route' d') :
    d = d' := by
  obtain rfl | hearlier := h.last _ _ h'.declares h'.named
  · exact h.declares.eq h'.declares
  · obtain rfl | hback := h'.last _ _ h.declares h.named
    · exact h.declares.eq h'.declares
    · exact absurd hback hearlier.asymm

namespace Program

theorem function?_link_eq (script : Block) (name : String) :
    (link script).function? name =
      (script.linked.declarations.reverse.find? fun e => e.2.name == name).map fun e =>
        FunctionDef.ofDecl e.2 := by
  have hfunctions : (link script).functions =
      Assoc.ofList (script.linked.functions.map fun d => (d.name, FunctionDef.ofDecl d)) := rfl
  rw [function?, hfunctions, Assoc.get?_ofList, ← Block.map_declarations, List.map_map,
    ← List.map_reverse, List.find?_map, Option.map_map]
  rfl

theorem lastDeclared_of_function? {script : Block} {name : String} {d : FunctionDef}
    (h : (link script).function? name = some d) :
    ∃ route decl, script.linked.LastDeclared name route decl ∧ d = FunctionDef.ofDecl decl := by
  rw [function?_link_eq] at h
  obtain ⟨⟨route, decl⟩, hfind, rfl⟩ := Option.map_eq_some_iff.mp h
  have ordered := List.pairwise_reverse.mpr script.linked.pairwise_declarations
  obtain ⟨hmem, hname, hlast⟩ := first_of_find? ordered hfind
  refine ⟨route, decl, ⟨?_, eq_of_beq hname, ?_⟩, rfl⟩
  · exact Block.mem_declarations.mp (List.mem_reverse.mp hmem)
  · intro route' decl' hdeclares hname'
    have hmem' := List.mem_reverse.mpr (Block.mem_declarations.mpr hdeclares)
    obtain heq | hearlier := hlast _ hmem' (beq_iff_eq.mpr hname')
    · exact .inl (congrArg (·.1) heq)
    · exact .inr hearlier

theorem function?_link_eq_some {script : Block} {name : String} {d : FunctionDef} :
    (link script).function? name = some d ↔
      ∃ route decl, script.linked.LastDeclared name route decl ∧
        d = FunctionDef.ofDecl decl := by
  refine ⟨lastDeclared_of_function?, ?_⟩
  rintro ⟨route, decl, hlast, rfl⟩
  have hsome : ((link script).function? name).isSome := by
    rw [function?_link_eq, Option.isSome_map, List.find?_isSome]
    exact ⟨(route, decl), List.mem_reverse.mpr (Block.mem_declarations.mpr hlast.declares),
      beq_iff_eq.mpr hlast.named⟩
  obtain ⟨d, hd⟩ := Option.isSome_iff_exists.mp hsome
  obtain ⟨route', decl', hlast', rfl⟩ := lastDeclared_of_function? hd
  rw [hd, hlast.eq hlast']

theorem label?_link {script : Block} {u : CodeUnit} {b : Block}
    (h : (link script).unitRoot? u = some b) (name : String) :
    (link script).label? u name = Assoc.get? name (LabelTable.ofSites b.labelSites) := by
  cases u with
  | main =>
    cases h
    rfl
  | function f =>
    obtain ⟨d, hd, rfl⟩ := Option.map_eq_some_iff.mp h
    obtain ⟨decl, -, rfl⟩ := function?_link hd
    simp only [label?, hd]
    rfl

end Program

/-! ## Warnings

The five parts of the warnings are gone through one by one, and only two are about labels that occur
again. -/

/-- The warning is about a label that occurs again. -/
def LinkWarning.isDuplicate : LinkWarning → Bool
  | .duplicateLabel .. => true
  | _ => false

/-- None of the warnings is about a label that occurs again. -/
def LinkWarning.NoneDuplicate (warnings : List LinkWarning) : Prop :=
  ∀ w ∈ warnings, w.isDuplicate = false

namespace LinkWarning.NoneDuplicate

theorem nil : NoneDuplicate [] := by
  intro w hw
  cases hw

theorem append {ws ws' : List LinkWarning} (h : NoneDuplicate ws) (h' : NoneDuplicate ws') :
    NoneDuplicate (ws ++ ws') := by
  intro w hw
  obtain hw | hw := List.mem_append.mp hw
  · exact h w hw
  · exact h' w hw

theorem filter_eq_nil {ws : List LinkWarning} (h : NoneDuplicate ws) :
    ws.filter isDuplicate = [] := by
  rw [List.filter_eq_nil_iff]
  intro w hw
  rw [h w hw]
  exact Bool.false_ne_true

end LinkWarning.NoneDuplicate

open LinkWarning (NoneDuplicate)

mutual

theorem Expr.noneDuplicate_unknownEscapes : ∀ e : Expr, NoneDuplicate e.unknownEscapes
  | .string value line => by
    intro w hw
    obtain ⟨sequence, -, rfl⟩ := List.mem_map.mp hw
    rfl
  | .binary left _ right _ =>
    (Expr.noneDuplicate_unknownEscapes left).append (Expr.noneDuplicate_unknownEscapes right)
  | .unary _ operand _ => Expr.noneDuplicate_unknownEscapes operand
  | .field object _ _ _ => Expr.noneDuplicate_unknownEscapes object
  | .index object place _ =>
    (Expr.noneDuplicate_unknownEscapes object).append (Expr.noneDuplicate_unknownEscapes place)
  | .list items _ => Expr.noneDuplicate_listUnknownEscapes items
  | .call _ args _ => Expr.noneDuplicate_listUnknownEscapes args
  | .num .. | .bool .. | .null .. | .var .. | .noop .. => .nil

theorem Expr.noneDuplicate_listUnknownEscapes :
    ∀ es : List Expr, NoneDuplicate (Expr.listUnknownEscapes es)
  | [] => .nil
  | e :: rest =>
    (Expr.noneDuplicate_unknownEscapes e).append (Expr.noneDuplicate_listUnknownEscapes rest)

end

theorem Expr.noneDuplicate_optionUnknownEscapes (e : Option Expr) :
    NoneDuplicate (Expr.optionUnknownEscapes e) := by
  cases e with
  | none => exact .nil
  | some e => exact e.noneDuplicate_unknownEscapes

mutual

theorem Stmt.noneDuplicate_unknownEscapes : ∀ s : Stmt, NoneDuplicate s.unknownEscapes
  | .compound block => Block.noneDuplicate_unknownEscapes block
  | .assign targets _ values _ =>
    (Expr.noneDuplicate_listUnknownEscapes targets).append
      (Expr.noneDuplicate_listUnknownEscapes values)
  | .const bindings _ => by
    intro w hw
    obtain ⟨binding, -, hw⟩ := List.mem_flatMap.mp hw
    exact binding.value.noneDuplicate_unknownEscapes w hw
  | .condition branches otherwise _ =>
    (Branch.noneDuplicate_listUnknownEscapes branches).append
      (Block.noneDuplicate_optionUnknownEscapes otherwise)
  | .cycle test body _ =>
    test.noneDuplicate_unknownEscapes.append (Block.noneDuplicate_unknownEscapes body)
  | .doCycle body test _ =>
    test.noneDuplicate_unknownEscapes.append (Block.noneDuplicate_unknownEscapes body)
  | .retry attempts body test _ =>
    (attempts.noneDuplicate_unknownEscapes.append
      (Expr.noneDuplicate_optionUnknownEscapes test)).append
      (Block.noneDuplicate_unknownEscapes body)
  | .ret value _ => Expr.noneDuplicate_optionUnknownEscapes value
  | .exit status _ => Expr.noneDuplicate_optionUnknownEscapes status
  | .tryCatch body _ handler _ =>
    (Block.noneDuplicate_unknownEscapes body).append (Block.noneDuplicate_unknownEscapes handler)
  | .error message code _ =>
    message.noneDuplicate_unknownEscapes.append (Expr.noneDuplicate_optionUnknownEscapes code)
  | .throw value _ => value.noneDuplicate_unknownEscapes
  | .delay duration _ => duration.noneDuplicate_unknownEscapes
  | .status text _ => text.noneDuplicate_unknownEscapes
  | .declareWeb _ _ _ _ url _ => Expr.noneDuplicate_optionUnknownEscapes url
  | .function _ _ body _ => Block.noneDuplicate_unknownEscapes body
  | .call _ args _ => Expr.noneDuplicate_listUnknownEscapes args
  | .included _ body _ => Block.noneDuplicate_unknownEscapes body
  | .label .. | .goto .. | .gosub .. | .suspend .. | .input .. | .comment .. | .doc .. | .noop .. =>
    .nil

theorem Stmt.noneDuplicate_listUnknownEscapes :
    ∀ ss : List Stmt, NoneDuplicate (Stmt.listUnknownEscapes ss)
  | [] => .nil
  | s :: rest =>
    (Stmt.noneDuplicate_unknownEscapes s).append (Stmt.noneDuplicate_listUnknownEscapes rest)

theorem Block.noneDuplicate_unknownEscapes : ∀ b : Block, NoneDuplicate b.unknownEscapes
  | .mk body _ _ => Stmt.noneDuplicate_listUnknownEscapes body

theorem Block.noneDuplicate_optionUnknownEscapes :
    ∀ b : Option Block, NoneDuplicate (Block.optionUnknownEscapes b)
  | some b => Block.noneDuplicate_unknownEscapes b
  | none => .nil

theorem Branch.noneDuplicate_unknownEscapes : ∀ b : Branch, NoneDuplicate b.unknownEscapes
  | .mk test block =>
    test.noneDuplicate_unknownEscapes.append (Block.noneDuplicate_unknownEscapes block)

theorem Branch.noneDuplicate_listUnknownEscapes :
    ∀ bs : List Branch, NoneDuplicate (Branch.listUnknownEscapes bs)
  | [] => .nil
  | b :: rest =>
    (Branch.noneDuplicate_unknownEscapes b).append (Branch.noneDuplicate_listUnknownEscapes rest)

end

theorem LabelTable.noneDuplicate_undefined (table : LabelTable) (jumps : List JumpSite) :
    NoneDuplicate (table.undefined jumps) := by
  intro w hw
  obtain ⟨jump, -, rfl⟩ := List.mem_map.mp hw
  rfl

theorem LabelTable.filter_duplicates (seen : List String) (sites : List LabelSite) :
    (duplicates seen sites).filter LinkWarning.isDuplicate = duplicates seen sites := by
  rw [List.filter_eq_self, duplicates_eq]
  intro w hw
  obtain ⟨site, -, rfl⟩ := List.mem_map.mp hw
  rfl

/-- The warnings about labels that occur again, for each function and then for the main unit. A
function that is hidden by a later one is looked through as well, since all that are declared
are. -/
theorem Program.filter_warnings (script : Block) :
    (link script).warnings.filter LinkWarning.isDuplicate =
      (script.linked.declarations.map (·.2.body) ++ [script.linked]).flatMap fun b =>
        LabelTable.duplicates [] b.labelSites := by
  have hwarnings : (link script).warnings =
      script.unknownEscapes ++
        (script.linked.functions.flatMap fun d => LabelTable.duplicates [] d.body.labelSites) ++
        LabelTable.duplicates [] script.linked.labelSites ++
        (link script).labels.undefined script.linked.jumpSites ++
        (link script).functions.flatMap fun entry =>
          entry.2.labels.undefined entry.2.body.jumpSites := rfl
  have hundefined : NoneDuplicate
      ((link script).functions.flatMap fun entry =>
        entry.2.labels.undefined entry.2.body.jumpSites) := by
    intro w hw
    obtain ⟨entry, -, hw⟩ := List.mem_flatMap.mp hw
    exact LabelTable.noneDuplicate_undefined _ _ w hw
  rw [hwarnings]
  simp only [List.filter_append, script.noneDuplicate_unknownEscapes.filter_eq_nil,
    hundefined.filter_eq_nil, (LabelTable.noneDuplicate_undefined _ _).filter_eq_nil,
    LabelTable.filter_duplicates, List.filter_flatMap, List.nil_append, List.append_nil,
    ← Block.map_declarations, List.flatMap_append, List.flatMap_map, List.flatMap_cons,
    List.flatMap_nil]

/-! ## What linking keeps

Comments are dropped, so positions shift; the statements that are left are the same, in the same
order. -/

/-- The statements of a listing that are no comments, as linking leaves them. Comments have nothing
nested in them, so dropping them from a listing drops nothing else. -/
def kept (entries : List (StmtPath × Stmt)) : List Stmt :=
  (entries.filter fun e => !e.2.isComment).map fun e => e.2.linked

theorem kept_append (entries entries' : List (StmtPath × Stmt)) :
    kept (entries ++ entries') = kept entries ++ kept entries' := by
  rw [kept, List.filter_append, List.map_append]
  rfl

theorem Stmt.nested_of_isComment {s : Stmt} (h : s.isComment = true) (place : StmtPath) :
    s.nested place = [] := by
  cases s with
  | comment => rfl
  | doc => rfl
  | _ => cases h

mutual

/-- Linking and then listing gives the statements that are kept, at other positions. Both sides go
through the script by the same recursion. -/
theorem Block.map_statements_linked :
    ∀ (b : Block) (path path' : BlockPath),
      (b.linked.statements path').map (·.2) = kept (b.statements path)
  | .mk body _ _, path, path' => Stmt.map_listStatements_linked body path path' 0 0

theorem Stmt.map_listStatements_linked :
    ∀ (ss : List Stmt) (path path' : BlockPath) (index index' : Nat),
      (Stmt.listStatements path' index' (Stmt.listLinked ss)).map (·.2) =
        kept (Stmt.listStatements path index ss)
  | [], _, _, _, _ => rfl
  | s :: rest, path, path', index, index' => by
    rw [Stmt.listLinked, Stmt.listStatements]
    cases hcomment : s.isComment with
    | true =>
      rw [if_pos rfl, Stmt.nested_of_isComment hcomment,
        Stmt.map_listStatements_linked rest path path' (index + 1) index']
      simp [kept, hcomment]
    | false =>
      rw [if_neg Bool.false_ne_true, Stmt.listStatements, List.cons_append, List.map_cons,
        List.map_append, Stmt.map_nested_linked s ⟨path, index⟩ ⟨path', index'⟩,
        Stmt.map_listStatements_linked rest path path' (index + 1) (index' + 1), ← kept_append]
      simp [kept, hcomment]

theorem Stmt.map_nested_linked :
    ∀ (s : Stmt) (place place' : StmtPath),
      (s.linked.nested place').map (·.2) = kept (s.nested place)
  | .compound block, _, _ => Block.map_statements_linked block _ _
  | .cycle _ body _, _, _ => Block.map_statements_linked body _ _
  | .doCycle body _ _, _, _ => Block.map_statements_linked body _ _
  | .retry _ body _ _, _, _ => Block.map_statements_linked body _ _
  | .included _ body _, _, _ => Block.map_statements_linked body _ _
  | .tryCatch body _ handler _, place, place' => by
    rw [Stmt.linked, Stmt.nested, Stmt.nested, kept_append, List.map_append,
      Block.map_statements_linked body (place.child .body),
      Block.map_statements_linked handler (place.child .handler)]
  | .condition branches otherwise _, place, place' => by
    rw [Stmt.linked, Stmt.nested, Stmt.nested, kept_append, List.map_append,
      Branch.map_listStatements_linked branches place place' 0,
      Block.map_optionStatements_linked otherwise (place.child .otherwise)]
  | .assign .., _, _ | .const .., _, _ | .label .., _, _ | .goto .., _, _ | .gosub .., _, _
  | .ret .., _, _
  | .exit .., _, _ | .error .., _, _ | .throw .., _, _ | .delay .., _, _ | .suspend .., _, _
  | .status .., _, _
  | .declareWeb .., _, _ | .function .., _, _ | .call .., _, _ | .input .., _, _ | .comment .., _, _
  | .doc .., _, _ | .noop .., _, _ => rfl

theorem Block.map_optionStatements_linked :
    ∀ (b : Option Block) (path path' : BlockPath),
      (Block.optionStatements path' (Block.optionLinked b)).map (·.2) =
        kept (Block.optionStatements path b)
  | some b, path, path' => Block.map_statements_linked b path path'
  | none, _, _ => rfl

theorem Branch.map_listStatements_linked :
    ∀ (branches : List Branch) (place place' : StmtPath) (index : Nat),
      (Branch.listStatements place' index (Branch.listLinked branches)).map (·.2) =
        kept (Branch.listStatements place index branches)
  | [], _, _, _ => rfl
  | .mk test block :: rest, place, place', index => by
    rw [Branch.listLinked, Branch.linked, Branch.listStatements, Branch.listStatements, kept_append,
      List.map_append, Block.map_statements_linked block (place.child (.branch index)),
      Branch.map_listStatements_linked rest place place' (index + 1)]

end

theorem Block.exists_lies_iff {b : Block} {s : Stmt} :
    (∃ place, b.Lies place s) ↔ s ∈ (b.statements []).map (·.2) := by
  constructor
  · rintro ⟨place, h⟩
    exact List.mem_map.mpr ⟨(place, s), mem_statements_iff.mpr h, rfl⟩
  · intro h
    obtain ⟨⟨place, s⟩, hmem, rfl⟩ := List.mem_map.mp h
    exact ⟨place, mem_statements_iff.mp hmem⟩

theorem Block.lies_label_linked {b : Block} {name : String} {line : Line} :
    (∃ place, b.linked.Lies place (.label name line)) ↔
      ∃ place, b.Lies place (.label name line) := by
  rw [exists_lies_iff, map_statements_linked b [] []]
  constructor
  · intro h
    obtain ⟨⟨place, s⟩, hmem, heq⟩ := List.mem_map.mp h
    have hlies := mem_statements_iff.mp (List.mem_filter.mp hmem).1
    cases s with
    | label name' line' =>
      cases heq
      exact ⟨place, hlies⟩
    | _ => cases heq
  · rintro ⟨place, h⟩
    exact List.mem_map.mpr ⟨_, List.mem_filter.mpr ⟨mem_statements_iff.mpr h, rfl⟩, rfl⟩

def FunctionDecl.linked (d : FunctionDecl) : FunctionDecl := { d with body := d.body.linked }

/-- The functions of a linked script are those of the script, with their bodies linked. By recursion
into bodies, because a function is listed with those inside of it. -/
theorem Block.functions_linked_eq (b : Block) :
    b.linked.functions = b.functions.map FunctionDecl.linked := by
  induction b using Block.function_induction with
  | step b ih =>
    have hlisted : b.linked.functions = (kept (b.statements [])).flatMap Stmt.declared := by
      rw [functions_eq b.linked [], ← map_statements_linked b [] [], List.flatMap_map]
    rw [hlisted, functions_eq b [], kept, List.flatMap_map, List.map_flatMap]
    have hentries : ∀ entries : List (StmtPath × Stmt), (∀ e ∈ entries, b.Lies e.1 e.2) →
        (entries.filter fun e => !e.2.isComment).flatMap (fun e => e.2.linked.declared) =
          entries.flatMap fun e => e.2.declared.map FunctionDecl.linked := by
      intro entries hentries
      induction entries with
      | nil => rfl
      | cons e rest ihrest =>
        obtain ⟨place, s⟩ := e
        have hrest := ihrest fun e he => hentries e (List.mem_cons_of_mem _ he)
        have hlies : b.Lies place s := hentries (place, s) List.mem_cons_self
        cases s with
        | function name params body line =>
          rw [List.filter_cons_of_pos rfl, List.flatMap_cons, List.flatMap_cons, hrest, Stmt.linked,
            Stmt.declared, Stmt.declared, List.map_cons, ih _ _ _ _ _ hlies]
          rfl
        | comment => exact hrest
        | doc => exact hrest
        | _ => exact hrest
    exact hentries _ fun e he => mem_statements_iff.mp he

theorem Block.declares_linked {b : Block} {d : FunctionDecl} :
    (∃ route, b.linked.Declares route d) ↔
      ∃ route d', b.Declares route d' ∧ d = d'.linked := by
  have hmem : ∀ {b : Block} {d : FunctionDecl}, (∃ route, b.Declares route d) ↔
      d ∈ b.functions := by
    intro b d
    rw [← map_declarations, List.mem_map]
    constructor
    · rintro ⟨route, h⟩
      exact ⟨(route, d), mem_declarations.mpr h, rfl⟩
    · rintro ⟨⟨route, d⟩, h, rfl⟩
      exact ⟨route, mem_declarations.mp h⟩
  rw [hmem, functions_linked_eq, List.mem_map]
  constructor
  · rintro ⟨d', h, rfl⟩
    obtain ⟨route, hroute⟩ := hmem.mpr h
    exact ⟨route, d', hroute, rfl⟩
  · rintro ⟨route, d', h, rfl⟩
    exact ⟨d', hmem.mp ⟨route, h⟩, rfl⟩

/-! ## The tables of a program -/

namespace Program

/-- The table of a unit is that of the labels in its block. What an entry leads to is there and is a
label, so that a jump does not come to a wrong statement. -/
structure LabelsExact (p : Program) (u : CodeUnit) (b : Block) : Prop where
  isSome_iff : ∀ name, (p.label? u name).isSome ↔
    ∃ place line, b.Lies place (.label name line)
  first : ∀ name target, p.label? u name = some target ↔ b.FirstLabel name target
  resolves : ∀ name target, p.label? u name = some target →
    ∃ c line, p.block? u target.block = some c ∧
      c.body[target.index]? = some (.label name line) ∧
      p.stmt? u target = some (.label name line)

theorem labelsExact_link {script : Block} {u : CodeUnit} {b : Block}
    (h : (link script).unitRoot? u = some b) : (link script).LabelsExact u b where
  isSome_iff := by
    intro name
    rw [label?_link h]
    exact LabelTable.isSome_get?_ofSites
  first := by
    intro name target
    rw [label?_link h]
    exact LabelTable.get?_ofSites_eq_some
  resolves := by
    intro name target htarget
    rw [label?_link h] at htarget
    obtain ⟨line, hlies⟩ := (LabelTable.get?_ofSites_eq_some.mp htarget).lies
    obtain ⟨c, hc, hs⟩ := Block.stmtAt?_eq_some.mp (Block.lies_iff.mp hlies)
    have hblock := block?_eq_some.mpr ⟨b, h, hc⟩
    refine ⟨c, line, hblock, hs, ?_⟩
    rw [← hs]
    exact stmt?_of_block? hblock target.index

/-- In every unit of a linked script a name leads to the first label of that name, and to none if
the unit has none. The table of functions has the last declaration of each name, as a whole. The
warnings about labels that occur again are one for each such label, in every function that is
declared and in the main unit. And the labels and declarations in question are those of the
script. -/
theorem label_tables_exact (script : Block) :
    (∀ u b, (link script).unitRoot? u = some b → (link script).LabelsExact u b) ∧
    (∀ name d, (link script).function? name = some d ↔
      ∃ route decl, (link script).root.LastDeclared name route decl ∧
        d = FunctionDef.ofDecl decl) ∧
    (∃ (decls : List (List StmtPath × FunctionDecl)) (repeated : Block → List LabelSite),
      (link script).root.Declarations decls ∧ (∀ b : Block, b.Repeats (repeated b)) ∧
      (link script).warnings.filter LinkWarning.isDuplicate =
        (decls.map (·.2.body) ++ [(link script).root]).flatMap fun b =>
          (repeated b).map fun site => .duplicateLabel site.line site.name) ∧
    (∀ name line, (∃ place, (link script).root.Lies place (.label name line)) ↔
      ∃ place, script.Lies place (.label name line)) ∧
    (∀ d, (∃ route, (link script).root.Declares route d) ↔
      ∃ route d', script.Declares route d' ∧ d = d'.linked) := by
  refine ⟨?_, ?_, ?_, ?_, ?_⟩
  · intro u b h
    exact labelsExact_link h
  · intro name d
    exact function?_link_eq_some
  -- the two lists are the ones that the linker computes, and each meets its own specification
  · refine ⟨script.linked.declarations, fun b => LabelTable.repeated [] b.labelSites,
      script.linked.declarations_spec, LabelTable.repeats_repeated, ?_⟩
    rw [filter_warnings]
    simp only [LabelTable.duplicates_eq]
    rfl
  · intro name line
    exact Block.lies_label_linked
  · intro d
    exact Block.declares_linked

end Program

end Stepwise
