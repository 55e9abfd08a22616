import Stencil.Proofs.Script.Lexing
import Stencil.Proofs.Script.Located
import Stencil.Proofs.Script.Written

/-!
The names of variables in a tree. Wherever code names a variable, the name is a word of the code
that is no keyword. The main statement is `isVariable_of_reading`. A field of an object without a
value is apart: it stands for the variable of its key, and a key may be any word, text or number
(`parseExpression_of_shorthand`).
-/

namespace Stencil.Script

set_option autoImplicit true

mutual

/-- The names of variables in an expression, also where they are assigned to or bound; those of fields
that may have been written without a value only if `short`. -/
def Expr.variables (short : Bool) : Expr → List String
  | .value _ => []
  | .ident name => [name]
  | .self => []
  | .array items => Expr.variablesAll short items
  | .object fields => Expr.fieldVariables short fields
  | .member target key => target.variables short ++ key.variables short
  | .filter _ args => Expr.variablesAll short args
  | .call _ args => Expr.variablesAll short args
  | .method target _ args => target.variables short ++ Expr.variablesAll short args
  | .unary _ operand => operand.variables short
  | .binary _ left right => left.variables short ++ right.variables short
  | .logical _ left right => left.variables short ++ right.variables short
  | .conditional test yes no =>
    test.variables short ++ (yes.variables short ++ no.variables short)
  | .assign name _ value => name :: value.variables short
  | .update name _ _ => [name]
  | .function params body => params ++ Stmt.variablesAll short body

def Expr.variablesAll (short : Bool) : List Expr → List String
  | [] => []
  | e :: es => e.variables short ++ Expr.variablesAll short es

def Expr.optionVariables (short : Bool) : Option Expr → List String
  | none => []
  | some e => e.variables short

def Expr.fieldVariables (short : Bool) : List (String × Expr) → List String
  | [] => []
  | (key, e) :: fields =>
    (if !short && e.names key then [] else e.variables short) ++ Expr.fieldVariables short fields

def Expr.declVariables (short : Bool) : List (String × Option Expr) → List String
  | [] => []
  | (name, value) :: decls =>
    name :: (Expr.optionVariables short value ++ Expr.declVariables short decls)

def Stmt.variables (short : Bool) : Stmt → List String
  | .text _ => []
  | .output value _ _ => value.variables short
  | .expr e _ => e.variables short
  | .declare _ decls _ => Expr.declVariables short decls
  | .branch test yes no _ =>
    test.variables short ++ (yes.variables short ++ Stmt.optionVariables short no)
  | .forOf name items body _ => name :: (items.variables short ++ body.variables short)
  | .forIn name target body _ => name :: (target.variables short ++ body.variables short)
  | .loop first test update body _ =>
    Stmt.optionVariables short first ++ (Expr.optionVariables short test ++
      (Expr.optionVariables short update ++ body.variables short))
  | .whileDo test body _ => test.variables short ++ body.variables short
  | .block body => Stmt.variablesAll short body
  | .breakLoop => []
  | .continueLoop => []
  | .giveBack value => Expr.optionVariables short value
  | .empty => []

def Stmt.variablesAll (short : Bool) : List Stmt → List String
  | [] => []
  | stmt :: rest => stmt.variables short ++ Stmt.variablesAll short rest

def Stmt.optionVariables (short : Bool) : Option Stmt → List String
  | none => []
  | some stmt => stmt.variables short

end

/-- The key of each field that may have been written without a value has the property. -/
def Checks.keyed (P : String → Prop) : Checks where
  expr
    | .object fields => ∀ field ∈ fields, field.2.names field.1 = true → P field.1
    | _ => True
  stmt _ := True

section

variable {P : String → Prop}

mutual

theorem variables_iff : (e : Expr) →
    ((∀ name ∈ e.variables true, P name) ↔
      (∀ name ∈ e.variables false, P name) ∧ e.Every (.keyed P))
  | .value _ => by simp only [Expr.variables, Expr.Every, Checks.keyed, and_true]
  | .ident _ => by simp only [Expr.variables, Expr.Every, Checks.keyed, and_true]
  | .self => by simp only [Expr.variables, Expr.Every, Checks.keyed, and_true]
  | .array items => by
    simp only [Expr.variables, Expr.Every, Checks.keyed, variablesAll_iff items, true_and]
  | .object fields => by
    simp only [Expr.variables, Expr.Every, Checks.keyed, fieldVariables_iff fields]
  | .member target key => by
    simp only [Expr.variables, Expr.Every, Checks.keyed, List.forall_mem_append,
      variables_iff target, variables_iff key]
    tauto
  | .filter _ args => by
    simp only [Expr.variables, Expr.Every, Checks.keyed, variablesAll_iff args, true_and]
  | .call _ args => by
    simp only [Expr.variables, Expr.Every, Checks.keyed, variablesAll_iff args, true_and]
  | .method target _ args => by
    simp only [Expr.variables, Expr.Every, Checks.keyed, List.forall_mem_append,
      variables_iff target, variablesAll_iff args]
    tauto
  | .unary _ operand => by
    simp only [Expr.variables, Expr.Every, Checks.keyed, variables_iff operand, true_and]
  | .binary _ left right => by
    simp only [Expr.variables, Expr.Every, Checks.keyed, List.forall_mem_append,
      variables_iff left, variables_iff right]
    tauto
  | .logical _ left right => by
    simp only [Expr.variables, Expr.Every, Checks.keyed, List.forall_mem_append,
      variables_iff left, variables_iff right]
    tauto
  | .conditional test yes no => by
    simp only [Expr.variables, Expr.Every, Checks.keyed, List.forall_mem_append,
      variables_iff test, variables_iff yes, variables_iff no]
    tauto
  | .assign _ _ value => by
    simp only [Expr.variables, Expr.Every, Checks.keyed, List.forall_mem_cons,
      variables_iff value]
    tauto
  | .update _ _ _ => by simp only [Expr.variables, Expr.Every, Checks.keyed, and_true]
  | .function _ body => by
    simp only [Expr.variables, Expr.Every, Checks.keyed, List.forall_mem_append,
      stmtVariablesAll_iff body]
    tauto

theorem variablesAll_iff : (es : List Expr) →
    ((∀ name ∈ Expr.variablesAll true es, P name) ↔
      (∀ name ∈ Expr.variablesAll false es, P name) ∧ Expr.AllEvery (.keyed P) es)
  | [] => by simp only [Expr.variablesAll, Expr.AllEvery, and_true]
  | e :: es => by
    simp only [Expr.variablesAll, Expr.AllEvery, List.forall_mem_append, variables_iff e,
      variablesAll_iff es]
    tauto

theorem optionVariables_iff : (value : Option Expr) →
    ((∀ name ∈ Expr.optionVariables true value, P name) ↔
      (∀ name ∈ Expr.optionVariables false value, P name) ∧ Expr.OptionEvery (.keyed P) value)
  | none => by simp only [Expr.optionVariables, Expr.OptionEvery, and_true]
  | some e => variables_iff e

theorem fieldVariables_iff : (fields : List (String × Expr)) →
    ((∀ name ∈ Expr.fieldVariables true fields, P name) ↔
      (∀ name ∈ Expr.fieldVariables false fields, P name) ∧
        (∀ field ∈ fields, field.2.names field.1 = true → P field.1) ∧
          Expr.FieldsEvery (.keyed P) fields)
  | [] => by simp [Expr.fieldVariables, Expr.FieldsEvery]
  | (key, e) :: fields => by
    simp only [Expr.fieldVariables, Expr.FieldsEvery, List.forall_mem_append, List.forall_mem_cons,
      fieldVariables_iff fields]
    by_cases h : e.names key = true
    · obtain rfl := Expr.eq_of_names h
      simp [Expr.variables, Expr.Every, Checks.keyed, Expr.names]
      tauto
    · simp only [h, Bool.and_false, if_neg Bool.false_ne_true, variables_iff e]
      tauto

theorem declVariables_iff : (decls : List (String × Option Expr)) →
    ((∀ name ∈ Expr.declVariables true decls, P name) ↔
      (∀ name ∈ Expr.declVariables false decls, P name) ∧ Expr.DeclsEvery (.keyed P) decls)
  | [] => by simp only [Expr.declVariables, Expr.DeclsEvery, and_true]
  | (_, value) :: decls => by
    simp only [Expr.declVariables, Expr.DeclsEvery, List.forall_mem_append, List.forall_mem_cons,
      optionVariables_iff value, declVariables_iff decls]
    tauto

theorem stmtVariables_iff : (stmt : Stmt) →
    ((∀ name ∈ stmt.variables true, P name) ↔
      (∀ name ∈ stmt.variables false, P name) ∧ stmt.Every (.keyed P))
  | .text _ => by simp only [Stmt.variables, Stmt.Every, Checks.keyed, and_true]
  | .output e _ _ => by
    simp only [Stmt.variables, Stmt.Every, Checks.keyed, variables_iff e, true_and]
  | .expr e _ => by
    simp only [Stmt.variables, Stmt.Every, Checks.keyed, variables_iff e, true_and]
  | .declare _ decls _ => by
    simp only [Stmt.variables, Stmt.Every, Checks.keyed, declVariables_iff decls, true_and]
  | .branch test yes no _ => by
    simp only [Stmt.variables, Stmt.Every, Checks.keyed, List.forall_mem_append,
      variables_iff test, stmtVariables_iff yes, optionStmtVariables_iff no]
    tauto
  | .forOf _ items body _ => by
    simp only [Stmt.variables, Stmt.Every, Checks.keyed, List.forall_mem_append,
      List.forall_mem_cons, variables_iff items, stmtVariables_iff body]
    tauto
  | .forIn _ target body _ => by
    simp only [Stmt.variables, Stmt.Every, Checks.keyed, List.forall_mem_append,
      List.forall_mem_cons, variables_iff target, stmtVariables_iff body]
    tauto
  | .loop first test update body _ => by
    simp only [Stmt.variables, Stmt.Every, Checks.keyed, List.forall_mem_append,
      optionStmtVariables_iff first, optionVariables_iff test, optionVariables_iff update,
      stmtVariables_iff body]
    tauto
  | .whileDo test body _ => by
    simp only [Stmt.variables, Stmt.Every, Checks.keyed, List.forall_mem_append,
      variables_iff test, stmtVariables_iff body]
    tauto
  | .block body => by
    simp only [Stmt.variables, Stmt.Every, Checks.keyed, stmtVariablesAll_iff body, true_and]
  | .breakLoop => by simp only [Stmt.variables, Stmt.Every, Checks.keyed, and_true]
  | .continueLoop => by simp only [Stmt.variables, Stmt.Every, Checks.keyed, and_true]
  | .giveBack value => by
    simp only [Stmt.variables, Stmt.Every, Checks.keyed, optionVariables_iff value, true_and]
  | .empty => by simp only [Stmt.variables, Stmt.Every, Checks.keyed, and_true]

theorem stmtVariablesAll_iff : (body : List Stmt) →
    ((∀ name ∈ Stmt.variablesAll true body, P name) ↔
      (∀ name ∈ Stmt.variablesAll false body, P name) ∧ Stmt.AllEvery (.keyed P) body)
  | [] => by simp only [Stmt.variablesAll, Stmt.AllEvery, and_true]
  | stmt :: rest => by
    simp only [Stmt.variablesAll, Stmt.AllEvery, List.forall_mem_append, stmtVariables_iff stmt,
      stmtVariablesAll_iff rest]
    tauto

theorem optionStmtVariables_iff : (no : Option Stmt) →
    ((∀ name ∈ Stmt.optionVariables true no, P name) ↔
      (∀ name ∈ Stmt.optionVariables false no, P name) ∧ Stmt.OptionEvery (.keyed P) no)
  | none => by simp only [Stmt.optionVariables, Stmt.OptionEvery, and_true]
  | some stmt => stmtVariables_iff stmt

end

end

/-- The names of variables in what a rule gives, without those of fields without a value. -/
def Rule.variables : Rule α → α → List String
  | statement, stmt => stmt.variables false
  | expressionStatement _, stmt => stmt.variables false
  | afterKeyword _ _ _, stmt => stmt.variables false
  | condition, e => e.variables false
  | alternative, no => Stmt.optionVariables false no
  | returned, value => Expr.optionVariables false value
  | block, body => Stmt.variablesAll false body
  | loopStart _, first => Stmt.optionVariables false first
  | optional _, value => Expr.optionVariables false value
  | declarations, decls => Expr.declVariables false decls
  | initial, value => Expr.optionVariables false value
  | assignment, e => e.variables false
  | conditional, e => e.variables false
  | binary _, e => e.variables false
  | binaryFrom _ _, e => e.variables false
  | unary, e => e.variables false
  | suffixed, e => e.variables false
  | chain, e => e.variables false
  | chainFrom _, e => e.variables false
  | expressions _, es => Expr.variablesAll false es
  | objectFields, fields => Expr.fieldVariables false fields
  | fieldValue key, e => if e.names key then [] else e.variables false
  | params, names => names
  | functionBody, e => e.variables false
  | primary, e => e.variables false

/-- The names in what a rule has from the left. -/
def Rule.variablesBefore : Rule α → List String
  | binaryFrom _ left => left.variables false
  | chainFrom target => target.variables false
  | _ => []

/-- The names that items can give have a property: their words that are no keywords, and the names
in their output tags. -/
structure Items.Naming (P : String → Prop) (s : List Item) : Prop where
  word : .word w l ∈ s → isReserved w = false → P w
  output : .output e escape l ∈ s → ∀ name ∈ e.variables false, P name

namespace Items.Naming

variable {P : String → Prop}

theorem mono {s t : List Item} (h : Naming P s) (hs : t ⊆ s) : Naming P t where
  word hw := h.word (hs hw)
  output ho := h.output (hs ho)

theorem tail (h : Naming P (item :: s)) : Naming P s := h.mono (List.subset_cons_self item s)

theorem head (h : Naming P (.word w l :: s)) (hw : isReserved w = false) : P w :=
  h.word List.mem_cons_self hw

theorem rest (h : Naming P s) (hd : Derives c r s v t) : Naming P t :=
  h.mono hd.rest_suffix.subset

end Items.Naming

/-- The name that a loop over elements or keys binds is a word in its head. -/
theorem word_of_loopHead? (h : loopHead? s = some r) : ∃ line, .word r.value.1 line ∈ s := by
  unfold loopHead? at h
  split at h
  · rename_i hd
    obtain ⟨⟨⟨name, elements⟩, rest, hlt⟩, he, rfl⟩ := Option.map_eq_some_iff.mp h
    obtain ⟨w, line, rfl, -⟩ := eq_of_declHead? hd
    obtain ⟨line, _, _, rfl, -⟩ := eq_of_eachHead? he
    exact ⟨line, List.mem_cons_of_mem _ List.mem_cons_self⟩
  · obtain ⟨⟨name, elements⟩, rest, hlt⟩ := r
    obtain ⟨line, _, _, rfl, -⟩ := eq_of_eachHead? h
    exact ⟨line, List.mem_cons_self⟩

theorem Items.Naming.head_of_loopHead? {P : String → Prop} (h : Naming P s)
    (hl : loopHead? s = some r) : P r.value.1 := by
  obtain ⟨line, hw⟩ := word_of_loopHead? hl
  obtain ⟨-, -, hn⟩ := eq_of_loopHead? hl
  exact h.word hw hn

theorem variables_callOf_subset (target : Expr) (name : String) (args : List Expr) :
    (callOf target name args).variables false ⊆
      target.variables false ++ Expr.variablesAll false args := by
  rcases callOf_cases target name args with hc | hc | hc
  · rw [hc]
    exact List.subset_append_right _ _
  · rw [hc]
    exact List.subset_append_right _ _
  · rw [hc]
    exact List.Subset.refl _

theorem variables_apply (op : Operator) (left right : Expr) :
    (op.apply left right).variables false = left.variables false ++ right.variables false := by
  cases op <;> rfl

/-- What a rule gives has its names from the items that it takes. -/
theorem Derives.variables {P : String → Prop} (h : Derives c r s v rest) (hs : Items.Naming P s)
    (hb : ∀ name ∈ r.variablesBefore, P name) : ∀ name ∈ r.variables v, P name := by
  have hnone : ∀ name ∈ ([] : List String), P name := nofun
  have hmore {as bs : List String} (ha : ∀ name ∈ as, P name) (hb : ∀ name ∈ bs, P name) :
      ∀ name ∈ as ++ bs, P name := List.forall_mem_append.mpr ⟨ha, hb⟩
  have hname {name : String} {names : List String} (hn : P name) (hrest : ∀ name ∈ names, P name) :
      ∀ other ∈ name :: names, P other := List.forall_mem_cons.mpr ⟨hn, hrest⟩
  induction h with
  -- statements
  | text => exact hnone
  | output => exact hs.output List.mem_cons_self
  | braces _ ih => exact ih hs.tail hnone
  | empty => exact hnone
  | keyword _ _ ih => exact ih hs.tail hnone
  | expression _ _ ih => exact ih hs hnone
  | expressionStatement _ ih => exact ih hs hnone
  | branch ht hy _ iht ihy ihn =>
    have hs₁ := hs.rest ht
    exact hmore (iht hs hnone) (hmore (ihy hs₁ hnone) (ihn (hs₁.rest hy) hnone))
  | forOf hl hr hi _ ihi ihb =>
    have hs₁ := hs.tail.mono (suffix_of_loopHead? hl).subset
    have hn := hs.tail.head_of_loopHead? hl
    rw [hr] at hn
    exact hname hn (hmore (ihi hs₁ hnone) (ihb (hs₁.rest hi).tail hnone))
  | forIn hl hr ht _ iht ihb =>
    have hs₁ := hs.tail.mono (suffix_of_loopHead? hl).subset
    have hn := hs.tail.head_of_loopHead? hl
    rw [hr] at hn
    exact hname hn (hmore (iht hs₁ hnone) (ihb (hs₁.rest ht).tail hnone))
  | loop _ hf ht hu _ ihf iht ihu ihb =>
    have hs₁ := hs.tail.rest hf
    have hs₂ := hs₁.rest ht
    exact hmore (ihf hs.tail hnone)
      (hmore (iht hs₁ hnone) (hmore (ihu hs₂ hnone) (ihb (hs₂.rest hu) hnone)))
  | whileDo ht _ iht ihb => exact hmore (iht hs hnone) (ihb (hs.rest ht) hnone)
  | declare _ ih => exact ih hs hnone
  | breakLoop => exact hnone
  | continueLoop => exact hnone
  | giveBack _ _ ih => exact ih hs hnone
  | condition _ ih => exact ih hs.tail hnone
  | otherwise _ ih => exact ih hs.tail hnone
  | noAlternative => exact hnone
  | returned _ _ ih => exact ih hs hnone
  | nothingReturned => exact hnone
  | blockEnd => exact hnone
  | blockMore _ hf _ ihf ihm => exact hmore (ihf hs hnone) (ihm (hs.rest hf) hnone)
  -- the head of a counting loop
  | noStart => exact hnone
  | declareStart _ _ ih => exact ih hs.tail hnone
  | expressionStart _ _ _ ih => exact ih hs hnone
  | omitted => exact hnone
  | given _ _ ih => exact ih hs hnone
  -- declarations
  | lastDeclared hn _ _ ih => exact hname (hs.head hn) (hmore (ih hs.tail hnone) hnone)
  | declared hn hv _ ihv ihm =>
    exact hname (hs.head hn) (hmore (ihv hs.tail hnone) (ihm (hs.tail.rest hv).tail hnone))
  | initial _ ih => exact ih hs.tail hnone
  | noInitial => exact hnone
  -- expressions
  | assign hn _ _ ih => exact hname (hs.head hn) (ih hs.tail.tail hnone)
  | unassigned _ _ ih => exact ih hs hnone
  | choice ht hy _ iht ihy ihn =>
    have hs₁ := (hs.rest ht).tail
    exact hmore (iht hs hnone) (hmore (ihy hs₁ hnone) (ihn (hs₁.rest hy).tail hnone))
  | noChoice _ _ ih => exact ih hs hnone
  | binary hl _ ihl ihe => exact ihe (hs.rest hl) (ihl hs hnone)
  | operator _ hr _ ihr ihe =>
    refine ihe (hs.tail.rest hr) ?_
    rw [Rule.variablesBefore, variables_apply]
    exact hmore hb (ihr hs.tail hnone)
  | noOperator => exact hb
  | unary _ ih => exact ih hs.tail hnone
  | stepBefore hn => exact hname (hs.tail.head hn) hnone
  | noUnary _ _ _ ih => exact ih hs hnone
  | stepAfter _ ih => exact ih hs hnone
  | noStep _ _ ih => exact ih hs hnone
  | chain ht _ iht ihe => exact ihe (hs.rest ht) (iht hs hnone)
  | callProperty ha _ iha ihe =>
    have hs₁ := hs.tail.tail.tail
    have hall := hmore hb (iha hs₁ hnone)
    exact ihe (hs₁.rest ha) fun name hn => hall name (variables_callOf_subset _ _ _ hn)
  | property _ _ ih => exact ih hs.tail.tail (hmore hb hnone)
  | index hk _ ihk ihe => exact ihe (hs.tail.rest hk).tail (hmore hb (ihk hs.tail hnone))
  | call ha _ iha ihe => exact ihe (hs.tail.rest ha) (iha hs.tail hnone)
  | chainEnd => exact hb
  -- lists
  | noExpressions => exact hnone
  | lastExpression _ _ _ ih => exact hmore (ih hs hnone) hnone
  | expressions _ he _ ihe ihm => exact hmore (ihe hs hnone) (ihm (hs.rest he).tail hnone)
  | noFields => exact hnone
  | lastField _ _ ih => exact hmore (ih hs.tail hnone) hnone
  | fields _ hv _ ihv ihm =>
    exact hmore (ihv hs.tail hnone) (ihm (hs.tail.rest hv).tail hnone)
  | fieldValue _ ih =>
    intro name hn
    rw [Rule.variables] at hn
    split at hn
    · cases hn
    · exact ih hs.tail hnone name hn
  | shorthand =>
    intro name hn
    rw [Rule.variables, Expr.names, if_pos (decide_eq_true rfl)] at hn
    cases hn
  | noParams => exact hnone
  | lastParam hn => exact hname (hs.head hn) hnone
  | params hn _ ih => exact hname (hs.head hn) (ih hs.tail.tail hnone)
  | functionBody hp _ ihp ihb =>
    exact hmore (ihp hs.tail hnone) (ihb (hs.tail.rest hp).tail hnone)
  | namedFunction _ hp _ ihp ihb =>
    exact hmore (ihp hs.tail.tail hnone) (ihb (hs.tail.tail.rest hp).tail hnone)
  -- what expressions are made of
  | number => exact hnone
  | string => exact hnone
  | constant => exact hnone
  | self => exact hnone
  | ident hw => exact hname (hs.head (not_reserved_of_atom hw)) hnone
  | function _ _ ih => exact ih hs.tail hnone
  | parens _ ih => exact ih hs.tail hnone
  | array _ ih => exact ih hs.tail hnone
  | object _ ih => exact ih hs.tail hnone

theorem DerivesAll.variables {P : String → Prop} (h : DerivesAll last s program)
    (hs : Items.Naming P s) : ∀ name ∈ Stmt.variablesAll false program, P name := by
  induction h with
  | nil => exact nofun
  | cons _ hf _ ih =>
    exact List.forall_mem_append.mpr ⟨hf.variables hs nofun, ih (hs.rest hf)⟩

/-- The text can be the name of a variable: a word that is no keyword. -/
def IsVariable (name : String) : Prop := IsName name ∧ isReserved name = false

instance (name : String) : Decidable (IsVariable name) :=
  inferInstanceAs (Decidable (IsName name ∧ isReserved name = false))

theorem Lexeme.isName_of_takes (h : Takes s ls rest) (hw : .word w ∈ ls) : IsName w := by
  cases h with
  | blank => cases hw
  | lineComment => cases hw
  | comment => cases hw
  | number => cases List.mem_singleton.mp hw
  | text => cases List.mem_singleton.mp hw
  | mark => cases List.mem_singleton.mp hw
  | word hc =>
    cases List.mem_singleton.mp hw
    exact ⟨_, _, String.toList_ofList, hc, fun x hx => (List.mem_takeWhile_imp hx :)⟩

theorem Lexeme.isName_of_reads (h : Reads s ls) (hw : .word w ∈ ls) : IsName w := by
  induction h with
  | nil => cases hw
  | step ht _ ih =>
    rcases List.mem_append.mp hw with hw | hw
    · exact isName_of_takes ht hw
    · exact ih hw

namespace Items

theorem naming_of_lexemes {line : Nat} (h : lexemes code line = .ok items) :
    Naming IsVariable items := by
  unfold lexemes tokenize at h
  cases hc : Lexeme.ofCode code.toList with
  | error fault =>
    rw [hc] at h
    cases h
  | ok ls =>
    rw [hc] at h
    cases h
    constructor
    · intro w l hw hr
      obtain ⟨t, ht, he⟩ := List.mem_map.mp hw
      obtain ⟨lexeme, hl, rfl⟩ := List.mem_map.mp ht
      cases he
      exact ⟨Lexeme.isName_of_reads (Lexeme.reads_of_ofCode hc) hl, hr⟩
    · intro e escape l ho
      obtain ⟨t, -, he⟩ := List.mem_map.mp ho
      cases he

end Items

theorem isVariable_of_parseExpression (h : parseExpression code line = .ok e) :
    ∀ name ∈ e.variables false, IsVariable name := by
  rcases derives_of_parseExpression h with ⟨-, rfl⟩ | ⟨items, hi, hd⟩
  · exact nofun
  · exact hd.variables (Items.naming_of_lexemes hi) nofun

namespace Items

theorem naming_of_ofSegment {segment : Segment} (h : ofSegment last segment = .ok items) :
    Naming IsVariable items := by
  cases segment with
  | literal text =>
    cases h
    constructor
    · intro w l hw
      cases List.mem_singleton.mp hw
    · intro e escape l ho
      cases List.mem_singleton.mp ho
  | emit code escape line =>
    obtain ⟨e, he, rfl⟩ := map_eq_ok h
    constructor
    · intro w l hw
      cases List.mem_singleton.mp hw
    · intro e' escape' l ho
      cases List.mem_singleton.mp ho
      exact isVariable_of_parseExpression he
  | statement code line => exact naming_of_lexemes h

theorem Naming.append (hs : Naming P s) (ht : Naming P t) : Naming P (s ++ t) where
  word hw := (List.mem_append.mp hw).elim hs.word ht.word
  output ho := (List.mem_append.mp ho).elim hs.output ht.output

theorem naming_of_ofSegments (h : ofSegments last segments = .ok items) :
    Naming IsVariable items := by
  induction segments generalizing last items with
  | nil =>
    cases h
    exact ⟨nofun, nofun⟩
  | cons segment rest ih =>
    obtain ⟨first, hf, h⟩ := bind_eq_ok h
    obtain ⟨more, hm, h⟩ := bind_eq_ok h
    cases h
    exact (naming_of_ofSegment hf).append (ih hm)

end Items

theorem isVariable_of_build (h : build segments = .ok program) :
    ∀ name ∈ Stmt.variablesAll false program, IsVariable name := by
  obtain ⟨items, hi, h⟩ := bind_eq_ok h
  exact (derivesAll_of_statements h).variables (Items.naming_of_ofSegments hi)

/-- Neither a keyword nor other text becomes a variable, in the tree of a template or of an
expression, but by a field without a value: all other names are words of the code that are no
keywords, and all names are if and only if the keys of these fields are. -/
theorem isVariable_of_reading (segments : List Segment) (code : String) (line : Nat) :
    (∀ program, build segments = .ok program →
      (∀ name ∈ Stmt.variablesAll false program, IsVariable name) ∧
        ((∀ name ∈ Stmt.variablesAll true program, IsVariable name) ↔
          Stmt.AllEvery (.keyed IsVariable) program)) ∧
    ∀ e, parseExpression code line = .ok e →
      (∀ name ∈ e.variables false, IsVariable name) ∧
        ((∀ name ∈ e.variables true, IsVariable name) ↔ e.Every (.keyed IsVariable)) := by
  constructor
  · intro program h
    have hv := isVariable_of_build h
    exact ⟨hv, (stmtVariablesAll_iff program).trans (and_iff_right hv)⟩
  · intro e h
    have hv := isVariable_of_parseExpression h
    exact ⟨hv, (variables_iff e).trans (and_iff_right hv)⟩

/-- A declaration, and an object with a field without a value. -/
def namingSegments : List Segment := [.statement "var k = n" 1, .emit "\x7bx\x7d" true 1]

def namingProgram : List Stmt :=
  [.declare .var [("k", some (.ident "n"))] 1, .output (.object [("x", .ident "x")]) true 1]

theorem isVariable_of_reading_naming :
    build namingSegments = .ok namingProgram ∧
      Stmt.AllEvery (.keyed IsVariable) namingProgram ∧
      (∀ name ∈ Stmt.variablesAll true namingProgram, IsVariable name) ∧
      parseExpression "k = n++" 1 = .ok (.assign "k" none (.update "n" true false)) ∧
      (∀ name ∈ (Expr.assign "k" none (.update "n" true false)).variables false,
        IsVariable name) := by
  have hb : build namingSegments = .ok namingProgram := by cbv
  have hk : Stmt.AllEvery (.keyed IsVariable) namingProgram := by
    have hx : IsVariable "x" := by decide +kernel
    simp [namingProgram, Stmt.AllEvery, Stmt.Every, Expr.DeclsEvery, Expr.OptionEvery, Expr.Every,
      Expr.FieldsEvery, Checks.keyed, hx]
  have he : parseExpression "k = n++" 1 = .ok (.assign "k" none (.update "n" true false)) := by
    cbv
  obtain ⟨hbuild, hparse⟩ := isVariable_of_reading namingSegments "k = n++" 1
  exact ⟨hb, hk, (hbuild _ hb).2.mpr hk, he, (hparse _ he).1⟩

/-- A field without a value makes a variable of a keyword. -/
theorem parseExpression_of_shorthand :
    parseExpression "\x7bif\x7d" 1 = .ok (.object [("if", .ident "if")]) ∧
      "if" ∈ (Expr.object [("if", .ident "if")]).variables true ∧ ¬IsVariable "if" :=
  ⟨by cbv, by decide, fun h => absurd h.2 (by decide)⟩

end Stencil.Script
