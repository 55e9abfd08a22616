import Stencil.Proofs.Script.Gaps

/-!
What a rule gives depends on the items that it takes and on where it stops. The main statement is
`Derives.reread`: a rule takes the same items in front of anything else at which it stops, also with
other texts in them, and with some of the texts left out. Without such changes it gives the same
(`Derives.before`).
-/

namespace Stencil.Script

open List (suffix_append suffix_append_of_suffix suffix_cons suffix_refl)

set_option autoImplicit true

/-- Whatever may stand in the one context may stand in the other. -/
structure Context.Permits (c c' : Context) : Prop where
  inLoop : c.inLoop = true → c'.inLoop = true
  inFunction : c.inFunction = true → c'.inFunction = true

theorem Context.Permits.looping (h : Context.Permits c c') : c.looping.Permits c'.looping :=
  ⟨fun _ => rfl, h.inFunction⟩

theorem Context.Permits.function (c c' : Context) : c.function.Permits c'.function :=
  ⟨id, fun _ => rfl⟩

theorem Stmt.GoesOn.word (h : Stmt.GoesOn stmt u l) (w : String) (line : Nat) :
    stmt.GoesOn (.word w line :: u) l :=
  ⟨not_endsWith_cons_word h.1, h.2.of_suffix (suffix_cons _ u) rfl⟩

theorem Rule.GoesOn.branch (h : Rule.GoesOn .alternative no u l) (hne : u ≠ []) (hu : u <:+ u') :
    (Stmt.branch test yes no line).GoesOn u' l := by
  cases no with
  | none => exact h.elim
  | some no => exact Stmt.GoesOn.of_suffix h hne hu rfl

theorem Stmt.runsOn_giveBack (value : Option Expr) (u : List Item) :
    (Stmt.giveBack value).RunsOn u (.mark .semicolon) := by
  cases value with
  | none => exact (by decide : Lexeme.mark .semicolon ≠ .mark .closeBrace)
  | some e => exact .inl rfl

theorem Rule.GoesOn.giveBack (h : Rule.GoesOn .returned value u l) :
    (Stmt.giveBack value).RunsOn u l := by
  cases value with
  | none => exact h.1
  | some e => exact .inr h

theorem Quiet.endsReturn (h : Quiet (Rule.GoesOn .returned none u) rest t)
    (he : Script.endsReturn rest = true) : Script.endsReturn t = true := by
  rcases h with h | ⟨-, h⟩
  · rw [endsReturn_congr h, he]
  · rw [← Bool.not_eq_false, endsReturn_eq_false_iff]
    rintro ⟨l, hl, hs, hb⟩
    exact h l hl ⟨hb, hs⟩

theorem Rule.GoesOn.declared (h : Rule.GoesOn .initial value u l) :
    declsGoOn [(name, value)] (item :: u) l := by
  cases value with
  | none => exact h.elim
  | some e => exact ⟨name, e, rfl, Expr.GoesOn.of_suffix h (suffix_cons _ u) rfl⟩

theorem declsGoOn.cons (h : declsGoOn decls u l) (hu : u <:+ u') :
    declsGoOn (decl :: decls) u' l := by
  obtain ⟨name, e, hd, he⟩ := h
  exact ⟨name, e, by rw [List.getLast?_cons, hd]; rfl, he.of_suffix hu rfl⟩

theorem Operator.lastOperand_apply (op : Operator) (left right : Expr) :
    (op.apply left right).lastOperand = right.lastOperand := by
  cases op <;> rfl

/-- Of the operators, a sign may begin a statement. -/
theorem Operator.mark_of_opener (op : Operator) (h : op.mark ∈ openers) :
    op.mark = .plus ∨ op.mark = .minus := by
  cases op with
  | binary op => cases op <;> first | exact .inl rfl | exact .inr rfl | exact absurd h (by decide)
  | logical onTrue => cases onTrue <;> exact absurd h (by decide)

theorem Quiet.operatorHead? (h : Quiet (Expr.GoesOn e u) rest t)
    (hl : ∀ r, Script.operatorHead? rest = some r → r.value.level < level)
    (hr : Script.operatorHead? t = some r) : r.value.level < level := by
  have ht := found_of_operatorHead? hr
  rcases h with h | ⟨ho, h⟩
  · obtain ⟨r', hr', he⟩ := operatorHead?_of_found (h.symm.trans ht)
    exact he ▸ hl r' hr'
  · rw [ht] at ho
    rcases r.value.mark_of_opener ho with hm | hm
    · exact absurd trivial (h (.mark .plus) (ht.trans (by rw [hm])))
    · exact absurd trivial (h (.mark .minus) (ht.trans (by rw [hm])))

/-- Statements begin where they may, and something is left of those that a rule gives and
governs. -/
abbrev Rule.Stays (g : String → Option String) (whole : List Item) : Rule α → α → List Item → Prop
  | statement, stmt, s => Items.Starts whole s ∧ stmt.gone g = false
  | afterKeyword _ _ _, stmt, _ => ∀ body ∈ stmt.bodies, body.gone g = false
  | alternative, no, _ => ∀ stmt ∈ no, stmt.gone g = false
  | block, _, s => Items.Starts whole s
  | _, _, _ => True

/-- What is left of what a rule gives. -/
abbrev Rule.thin (g : String → Option String) : Rule α → α → α
  | statement, stmt => stmt.thin g
  | expressionStatement _, stmt => stmt.thin g
  | afterKeyword _ _ _, stmt => stmt.thin g
  | condition, e => e.thin g
  | alternative, no => Stmt.thinOption g no
  | returned, value => Expr.thinOption g value
  | block, body => Stmt.thinAll g body
  | loopStart _, first => Stmt.thinOption g first
  | optional _, value => Expr.thinOption g value
  | declarations, decls => Expr.thinDecls g decls
  | initial, value => Expr.thinOption g value
  | assignment, e => e.thin g
  | conditional, e => e.thin g
  | binary _, e => e.thin g
  | binaryFrom _ _, e => e.thin g
  | unary, e => e.thin g
  | suffixed, e => e.thin g
  | chain, e => e.thin g
  | chainFrom _, e => e.thin g
  | expressions _, es => Expr.thinAll g es
  | objectFields, fields => Expr.thinFields g fields
  | fieldValue _, e => e.thin g
  | params, names => names
  | functionBody, e => e.thin g
  | primary, e => e.thin g

/-- The rule gives for other items something of which the same is left; with a left operand or a
target, from any one of which the same is left. -/
abbrev Rule.Rereads (g g' : String → Option String) (c : Context) (s t : List Item) :
    Rule α → α → Prop
  | binaryFrom level left, e => ∀ left', left.thin g = left'.thin g' →
    ∃ e', Derives c (.binaryFrom level left') s e' t ∧ e.thin g = e'.thin g'
  | chainFrom target, e => ∀ target', target.thin g = target'.thin g' →
    ∃ e', Derives c (.chainFrom target') s e' t ∧ e.thin g = e'.thin g'
  | r, v => ∃ v', Derives c r s v' t ∧ r.thin g v = r.thin g' v'

/-- A semicolon after a statement is taken if it is there. -/
theorem Stmt.skip_before (stmt : Stmt) (s : List Item) (hu : ¬EndsWith .semicolon u)
    (hr : stmt.RunsOn u (.mark .semicolon)) :
    ∃ w, s = w ++ (Items.skip .semicolon s).rest ∧ (w = [] ∨ ∃ line, w = [.mark .semicolon line]) ∧
      ∀ t, Quiet (stmt.GoesOn (u ++ w)) (Items.skip .semicolon s).rest t →
        (Items.skip .semicolon (w ++ t)).rest = t ∧ Quiet (stmt.RunsOn u) s (w ++ t) := by
  obtain ⟨w, hw, hsemi, hskip⟩ := Items.skip_split s
  refine ⟨w, hw, hsemi, fun t ht => hskip _ t hr fun hn => ht.mono fun l hl => ?_⟩
  rw [hn, List.append_nil]
  exact ⟨hu, hl⟩

theorem Quiet.cons (t : List Item) : Quiet P (item :: rest) (item :: t) := .same rfl

/-- A rule takes the same items in front of anything at which it stops, also when their texts change,
and when texts go that matter to no statement. -/
theorem Derives.reread (h : Derives c r s v rest) (hs : s = u ++ rest) (hc : c.Permits c')
    (hw : Items.ThinnableFrom g whole s) (hv : r.Stays g whole v s) (hu : Thins g g' u u')
    (ht : Quiet (r.GoesOn v u) rest t) : r.Rereads g g' c' (u' ++ t) t v := by
  induction h generalizing u u' t c' with
  | @text c t₁ line s =>
    obtain rfl := taken_item hs
    cases hg : g t₁ with
    | none =>
      have hgone : (g t₁).isNone = false := hv.2
      rw [hg] at hgone
      cases hgone
    | some left =>
      have hleft : (Item.text t₁ line).thin g = some (.text left line) := by
        rw [Item.thin, hg]
        rfl
      obtain ⟨item', _, rfl, hi, hn⟩ := hu.cons hleft
      obtain rfl := hn.nil
      obtain ⟨t', rfl, hg'⟩ := Item.eq_of_thin_text hi
      refine ⟨.text t', .text, ?_⟩
      change Stmt.text ((g t₁).getD "") = Stmt.text ((g' t').getD "")
      rw [hg, hg']
  | output =>
    obtain rfl := taken_item hs
    obtain ⟨item', _, rfl, hi, hn⟩ := hu.cons rfl
    obtain rfl := hn.nil
    obtain ⟨e', rfl, he⟩ := Item.eq_of_thin_output hi
    exact ⟨_, .output, congrArg (Stmt.output · _ _) he⟩
  | braces hb ih =>
    obtain ⟨u₁, hs₁, -⟩ := hb.ends
    obtain rfl := taken_unique hs (taken_cons _ hs₁)
    obtain ⟨u₁', rfl, hu₁⟩ := hu.lexeme
    obtain ⟨body', hd, he⟩ := ih hs₁ hc hw.tail (.brace hw.suffix) hu₁ (ht.mono fun _ h => h.elim)
    exact ⟨_, .braces hd, congrArg Stmt.block he⟩
  | empty =>
    obtain rfl := taken_item hs
    obtain rfl := hu.single
    exact ⟨_, .empty, rfl⟩
  | keyword hk hb ih =>
    obtain ⟨u₁, hs₁, -⟩ := hb.ends
    obtain rfl := taken_unique hs (taken_cons _ hs₁)
    obtain ⟨u₁', rfl, hu₁⟩ := hu.lexeme
    have hbodies := hw.bodies hv.1 (.keyword hk hb)
    obtain ⟨stmt', hd, he⟩ := ih hs₁ hc hw.tail hbodies hu₁ (ht.mono fun _ h => h.word _ _)
    exact ⟨stmt', .keyword hk hd, he⟩
  | expression hl hb ih =>
    obtain ⟨u₁, hs₁, hne⟩ := hb.ends
    obtain rfl := taken_unique hs hs₁
    obtain ⟨stmt', hd, he⟩ := ih hs hc hw trivial hu ht
    obtain ⟨item, u, rfl⟩ := List.exists_cons_of_ne_nil hne
    obtain ⟨rfl, -⟩ := List.cons.inj hs
    obtain ⟨u', rfl, -⟩ := hu.lexeme
    exact ⟨stmt', .expression hl hd, he⟩
  | @expressionStatement _ _ e s₁ line he ih =>
    obtain ⟨u₁, hs₁, hu₁⟩ := he.ends
    obtain ⟨w, hw₁, hsemi, hskip⟩ := Stmt.skip_before (.expr e line) s₁ hu₁.unended (.inl rfl)
    obtain rfl := taken_unique hs (taken_append hs₁ hw₁)
    obtain ⟨u₁', w', rfl, hu₁', hw'⟩ := hu.split
    obtain rfl := hw'.semicolon hsemi
    obtain ⟨hrest, hq⟩ := hskip t ht
    obtain ⟨e', hd, he'⟩ := ih hs₁ hc hw trivial hu₁' (hq.mono fun _ h => .inr h)
    have hd' : Derives c' (.expressionStatement line) (u₁' ++ (w' ++ t)) (.expr e' line) _ :=
      .expressionStatement hd
    rw [hrest, ← List.append_assoc] at hd'
    exact ⟨_, hd', congrArg (Stmt.expr · line) he'⟩
  | @branch _ _ _ _ _ _ _ _ _ line hts hy hn iht ihy ihn =>
    obtain ⟨u₁, hs₁, hu₁⟩ := hts.ends
    obtain ⟨u₂, rfl, hu₂⟩ := hy.ends
    obtain ⟨u₃, rfl, hu₃⟩ := hn.ends
    obtain rfl := taken_unique hs (taken_append hs₁ (taken_append rfl rfl))
    obtain ⟨u₁', _, rfl, hu₁', hend⟩ := hu.split
    obtain ⟨u₂', u₃', rfl, hu₂', hu₃'⟩ := hend.split
    have hw₂ := hw.of_taken hs₁
    have hplace := Items.Starts.behind hs₁ hu₁ hw.suffix
    have hyes := hv _ List.mem_cons_self
    have hno := fun stmt hm => hv stmt (List.mem_cons_of_mem _ (Option.mem_toList.mpr hm))
    rw [List.append_assoc, List.append_assoc]
    obtain ⟨test', hdt, het⟩ := iht hs₁ hc hw trivial hu₁'
      (hu₂'.quiet (.inr (hy.fronts g hyes)) fun h => absurd h hu₂)
    obtain ⟨yes', hdy, hey⟩ := ihy rfl hc hw₂ ⟨hplace, hyes⟩ hu₂'
      (hu₃'.quiet (hn.fronts g hno) fun h => by
        obtain ⟨rfl, -⟩ | h' := hu₃
        · rw [h, List.append_nil] at ht
          exact ht.mono fun l hl => hl.of_suffix hu₂ (suffix_append u₁ u₂) rfl
        · exact absurd h h')
    obtain ⟨no', hdn, hen⟩ := ihn rfl hc (hw₂.of_taken rfl) hno hu₃' (ht.mono fun l hl => by
      obtain ⟨rfl, -⟩ | h' := hu₃
      · exact hl.elim
      · exact hl.branch h' (suffix_append_of_suffix (suffix_append u₂ u₃)))
    exact ⟨_, .branch hdt hdy hdn,
      (congr (congrArg₂ (fun test yes no => Stmt.branch test yes no line) het hey) hen :)⟩
  | @forOf _ _ name _ _ l₂ _ _ _ _ line _ hl hval hi hb ihi ihb =>
    obtain ⟨words, hwords, hall⟩ := loopHead?_before hl
    obtain ⟨u₁, hs₁, -⟩ := hi.ends
    obtain ⟨u₂, rfl, hu₂⟩ := hb.ends
    have hh := taken_append hwords (taken_append hs₁ (taken_cons _ rfl))
    obtain rfl := taken_unique hs (taken_cons _ hh)
    obtain ⟨_, rfl, hall'⟩ := hu.lexeme
    obtain ⟨_, rfl, hparts⟩ := hall'.words
    obtain ⟨u₁', _, rfl, hu₁', hend⟩ := hparts.split
    obtain ⟨u₂', rfl, hu₂'⟩ := hend.lexeme
    have hw₁ := hw.tail.of_taken hwords
    obtain ⟨items', hdi, hei⟩ := ihi hs₁ hc hw₁ trivial hu₁' (.cons (u₂' ++ t))
    have hw₂ := hw₁.of_taken hs₁
    obtain ⟨body', hdb, heb⟩ := ihb rfl hc.looping hw₂.tail
      ⟨.head hw₂.suffix, hv _ List.mem_cons_self⟩ hu₂' (ht.mono fun l h => h.of_suffix hu₂
        (suffix_cons_of_suffix (suffix_append_of_suffix (suffix_append_of_suffix
          (suffix_cons _ u₂))) _) rfl)
    obtain ⟨_, hl'⟩ := hall (u₁' ++ .mark .closeParen l₂ :: (u₂' ++ t))
    rw [List.cons_append, List.append_assoc, List.append_assoc]
    exact ⟨_, .forOf hl' hval hdi hdb, congrArg₂ (Stmt.forOf name · · line) hei heb⟩
  | @forIn _ _ name _ _ l₂ _ _ _ _ line _ hl hval hi hb ihi ihb =>
    obtain ⟨words, hwords, hall⟩ := loopHead?_before hl
    obtain ⟨u₁, hs₁, -⟩ := hi.ends
    obtain ⟨u₂, rfl, hu₂⟩ := hb.ends
    have hh := taken_append hwords (taken_append hs₁ (taken_cons _ rfl))
    obtain rfl := taken_unique hs (taken_cons _ hh)
    obtain ⟨_, rfl, hall'⟩ := hu.lexeme
    obtain ⟨_, rfl, hparts⟩ := hall'.words
    obtain ⟨u₁', _, rfl, hu₁', hend⟩ := hparts.split
    obtain ⟨u₂', rfl, hu₂'⟩ := hend.lexeme
    have hw₁ := hw.tail.of_taken hwords
    obtain ⟨target', hdi, hei⟩ := ihi hs₁ hc hw₁ trivial hu₁' (.cons (u₂' ++ t))
    have hw₂ := hw₁.of_taken hs₁
    obtain ⟨body', hdb, heb⟩ := ihb rfl hc.looping hw₂.tail
      ⟨.head hw₂.suffix, hv _ List.mem_cons_self⟩ hu₂' (ht.mono fun l h => h.of_suffix hu₂
        (suffix_cons_of_suffix (suffix_append_of_suffix (suffix_append_of_suffix
          (suffix_cons _ u₂))) _) rfl)
    obtain ⟨_, hl'⟩ := hall (u₁' ++ .mark .closeParen l₂ :: (u₂' ++ t))
    rw [List.cons_append, List.append_assoc, List.append_assoc]
    exact ⟨_, .forIn hl' hval hdi hdb, congrArg₂ (Stmt.forIn name · · line) hei heb⟩
  | @loop _ _ line _ _ _ _ _ _ _ _ _ _ hl hf hts hup hb ihf iht ihu ihb =>
    obtain ⟨u₁, hs₁, hu₁⟩ := hf.ends
    obtain ⟨u₂, rfl, hu₂⟩ := hts.ends
    obtain ⟨u₃, rfl, hu₃⟩ := hup.ends
    obtain ⟨u₄, rfl, hu₄⟩ := hb.ends
    have hh := taken_append hs₁ (taken_append rfl (taken_append rfl rfl))
    obtain rfl := taken_unique hs (taken_cons _ hh)
    obtain ⟨_, rfl, hparts⟩ := hu.lexeme
    obtain ⟨u₁', _, rfl, hu₁', hmore⟩ := hparts.split
    obtain ⟨u₂', _, rfl, hu₂', hend⟩ := hmore.split
    obtain ⟨u₃', u₄', rfl, hu₃', hu₄'⟩ := hend.split
    have hw₁ := hw.tail.of_taken hs₁
    have hw₂ := hw₁.of_taken rfl
    have hbody := hv _ List.mem_cons_self
    simp only [List.cons_append, List.append_assoc]
    obtain ⟨first', hdf, hef⟩ := ihf hs₁ hc hw.tail trivial hu₁'
      (hu₂'.quiet (.inr (hts.fronts g)) fun h => absurd h hu₂.ne_nil)
    obtain ⟨test', hdt, het⟩ := iht rfl hc hw₁ trivial hu₂'
      (hu₃'.quiet (.inr (hup.fronts g)) fun h => absurd h hu₃.ne_nil)
    obtain ⟨update', hdu, heu⟩ := ihu rfl hc hw₂ trivial hu₃'
      (hu₄'.quiet (.inr (hb.fronts g hbody)) fun h => absurd h hu₄)
    have hplace := Items.Starts.behind rfl hu₃ hw₂.suffix
    obtain ⟨body', hdb, heb⟩ := ihb rfl hc.looping (hw₂.of_taken rfl) ⟨hplace, hbody⟩ hu₄'
      (ht.mono fun l h => h.of_suffix hu₄ (suffix_cons_of_suffix (suffix_append_of_suffix
        (suffix_append_of_suffix (suffix_append u₃ u₄))) _) rfl)
    exact ⟨_, .loop hdf.counts hdf hdt hdu hdb, (congr (congr (congrArg₂
      (fun first test update body => Stmt.loop first test update body line) hef het) heu) heb :)⟩
  | @whileDo _ _ _ _ _ _ _ line hts hb iht ihb =>
    obtain ⟨u₁, hs₁, hu₁⟩ := hts.ends
    obtain ⟨u₂, rfl, hu₂⟩ := hb.ends
    obtain rfl := taken_unique hs (taken_append hs₁ rfl)
    obtain ⟨u₁', u₂', rfl, hu₁', hu₂'⟩ := hu.split
    have hbody := hv _ List.mem_cons_self
    rw [List.append_assoc]
    obtain ⟨test', hdt, het⟩ := iht hs₁ hc hw trivial hu₁'
      (hu₂'.quiet (.inr (hb.fronts g hbody)) fun h => absurd h hu₂)
    have hplace := Items.Starts.behind hs₁ hu₁ hw.suffix
    obtain ⟨body', hdb, heb⟩ := ihb rfl hc.looping (hw.of_taken hs₁) ⟨hplace, hbody⟩ hu₂'
      (ht.mono fun l h => h.of_suffix hu₂ (suffix_append u₁ u₂) rfl)
    exact ⟨_, .whileDo hdt hdb, congrArg₂ (Stmt.whileDo · · line) het heb⟩
  | @declare _ _ decls s₁ word kind line hd ih =>
    obtain ⟨u₁, hs₁, -, hu₁⟩ := hd.ends
    obtain ⟨w, hw₁, hsemi, hskip⟩ := Stmt.skip_before (.declare kind decls line) s₁ hu₁ (.inl rfl)
    obtain rfl := taken_unique hs (taken_append hs₁ hw₁)
    obtain ⟨u₁', w', rfl, hu₁', hw'⟩ := hu.split
    obtain rfl := hw'.semicolon hsemi
    obtain ⟨hrest, hq⟩ := hskip t ht
    obtain ⟨decls', hd, he⟩ := ih hs₁ hc hw trivial hu₁' (hq.mono fun _ h => .inr h)
    have hd' : Derives c' (.afterKeyword word (.declare kind) line) (u₁' ++ (w' ++ t))
      (.declare kind decls' line) _ := .declare hd
    rw [hrest, ← List.append_assoc] at hd'
    exact ⟨_, hd', congrArg (Stmt.declare kind · line) he⟩
  | @breakLoop _ word line s hl =>
    obtain ⟨w, hw₁, hsemi, hskip⟩ := Stmt.skip_before .breakLoop (u := []) s
      (fun h => h.ne_nil rfl) rfl
    obtain rfl := taken_unique hs hw₁
    obtain rfl := hu.semicolon hsemi
    have hd : Derives c' (.afterKeyword word .breakLoop line) (u' ++ t) _ _ :=
      .breakLoop (hc.inLoop hl)
    rw [(hskip t ht).1] at hd
    exact ⟨_, hd, rfl⟩
  | @continueLoop _ word line s hl =>
    obtain ⟨w, hw₁, hsemi, hskip⟩ := Stmt.skip_before .continueLoop (u := []) s
      (fun h => h.ne_nil rfl) rfl
    obtain rfl := taken_unique hs hw₁
    obtain rfl := hu.semicolon hsemi
    have hd : Derives c' (.afterKeyword word .continueLoop line) (u' ++ t) _ _ :=
      .continueLoop (hc.inLoop hl)
    rw [(hskip t ht).1] at hd
    exact ⟨_, hd, rfl⟩
  | @giveBack _ _ value s₁ word line hf hval ih =>
    obtain ⟨u₁, hs₁, hu₁⟩ := hval.ends
    obtain ⟨w, hw₁, hsemi, hskip⟩ := Stmt.skip_before (.giveBack value) s₁ hu₁
      (Stmt.runsOn_giveBack value u₁)
    obtain rfl := taken_unique hs (taken_append hs₁ hw₁)
    obtain ⟨u₁', w', rfl, hu₁', hw'⟩ := hu.split
    obtain rfl := hw'.semicolon hsemi
    obtain ⟨hrest, hq⟩ := hskip t ht
    obtain ⟨value', hd, he⟩ := ih hs₁ hc hw trivial hu₁' (hq.mono fun _ h => h.giveBack)
    have hd' : Derives c' (.afterKeyword word .giveBack line) (u₁' ++ (w' ++ t))
      (.giveBack value') _ := .giveBack (hc.inFunction hf) hd
    rw [hrest, ← List.append_assoc] at hd'
    exact ⟨_, hd', congrArg Stmt.giveBack he⟩
  | condition he ih =>
    obtain ⟨u₁, hs₁, -⟩ := he.ends
    obtain rfl := taken_unique hs (taken_cons _ (taken_concat hs₁))
    obtain ⟨_, rfl, hinner⟩ := hu.lexeme
    obtain ⟨u₁', rfl, hu₁'⟩ := hinner.concat
    obtain ⟨e', hd, he'⟩ := ih hs₁ hc hw.tail trivial hu₁' (.cons t)
    rw [List.cons_append, List.append_assoc]
    exact ⟨e', .condition hd, he'⟩
  | otherwise hb ih =>
    obtain ⟨u₁, hs₁, -⟩ := hb.ends
    obtain rfl := taken_unique hs (taken_cons _ hs₁)
    obtain ⟨u₁', rfl, hu₁'⟩ := hu.lexeme
    obtain ⟨stmt', hd, he⟩ := ih hs₁ hc hw.tail ⟨.otherwise hw.suffix, hv _ rfl⟩ hu₁'
      (ht.mono fun l h => h.word _ _)
    exact ⟨_, .otherwise hd, congrArg some he⟩
  | noAlternative he =>
    obtain rfl := taken_nothing hs
    obtain rfl := hu.nil
    exact ⟨none, .noAlternative (ht.elseHead? he), rfl⟩
  | returned he hr ih =>
    obtain ⟨u₁, hs₁, hu₁⟩ := hr.ends
    obtain rfl := taken_unique hs hs₁
    obtain ⟨e', hd, he'⟩ := ih hs hc hw trivial hu ht
    refine ⟨_, .returned ?_ hd, congrArg some he'⟩
    subst hs
    rw [endsReturn_congr (hu.found_append hu₁.ne_nil (hr.fronts g) t), he]
  | nothingReturned he =>
    obtain rfl := taken_nothing hs
    obtain rfl := hu.nil
    exact ⟨none, .nothingReturned (ht.endsReturn he), rfl⟩
  | blockEnd =>
    obtain rfl := taken_item hs
    obtain rfl := hu.single
    exact ⟨[], .blockEnd, rfl⟩
  | @blockMore c s first s₁ more rest ha hf hm ihf ihm =>
    obtain ⟨u₁, hs₁, hne⟩ := hf.ends
    obtain ⟨u₂, rfl, hu₂⟩ := hm.ends
    obtain rfl := taken_unique hs (taken_append hs₁ rfl)
    obtain ⟨u₁', u₂', rfl, hu₁', hu₂'⟩ := hu.split
    obtain ⟨more', hdm, hem⟩ := ihm rfl hc (hw.of_taken hs₁) (.next hv hf) hu₂' ht
    rw [List.append_assoc]
    cases hg : first.gone g with
    | true =>
      obtain rfl := hu₁'.nil_of_gone_statement hf hs₁ hg
      exact ⟨more', hdm, (Stmt.thinAll_of_gone hg more).trans hem⟩
    | false =>
      have hfront := hf.fronts g hg
      have hq := hu₂'.quiet_gap hw.toThinnable hv hf hs₁ rfl ?_ hdm.begins
      obtain ⟨first', hdf, hef⟩ := ihf hs₁ hc hw ⟨hv, hg⟩ hu₁' hq
      refine ⟨first' :: more', .blockMore ?_ hdf hdm, ?_⟩
      · subst hs₁
        exact Items.after?_congr (hu₁'.found_append hne hfront _) ha
      · change Stmt.thinAll g (first :: more) = Stmt.thinAll g' (first' :: more')
        rw [Stmt.thinAll_of_left hg, Stmt.thinAll_of_left (first'.gone_of_total hu.total)]
        exact congrArg₂ List.cons hef hem
      · intro hgone
        obtain ⟨n, hl⟩ := hu₂
        cases List.filterMap_eq_nil_iff.mp hgone _ (List.mem_of_getLast? hl)
  | noStart =>
    obtain rfl := taken_item hs
    obtain rfl := hu.single
    exact ⟨none, .noStart, rfl⟩
  | @declareStart _ kind _ _ _ _ _ line _ hk hd ih =>
    obtain ⟨u₁, hs₁, -⟩ := hd.ends
    obtain rfl := taken_unique hs (taken_cons _ (taken_concat hs₁))
    obtain ⟨_, rfl, hinner⟩ := hu.lexeme
    obtain ⟨u₁', rfl, hu₁'⟩ := hinner.concat
    obtain ⟨decls', hd', he⟩ := ih hs₁ hc hw.tail trivial hu₁' (.cons t)
    rw [List.cons_append, List.append_assoc]
    exact ⟨_, .declareStart hk hd', congrArg (fun decls => some (Stmt.declare kind decls line)) he⟩
  | @expressionStart _ _ _ l _ line ha hd he ih =>
    obtain ⟨u₁, hs₁, hu₁⟩ := he.ends
    obtain rfl := taken_unique hs (taken_concat hs₁)
    obtain ⟨u₁', rfl, hu₁'⟩ := hu.concat
    obtain ⟨e', hd', he'⟩ := ih hs₁ hc hw trivial hu₁' (.cons t)
    have hfront := he.fronts g
    rw [hs₁] at ha hd hfront
    have hfound := hu₁'.found_append hu₁.ne_nil hfront (.mark .semicolon l :: t)
    rw [List.append_assoc]
    exact ⟨_, .expressionStart (Items.after?_congr hfound ha) (declHead?_congr hfound hd) hd',
      congrArg (fun e => some (Stmt.expr e line)) he'⟩
  | omitted =>
    obtain rfl := taken_item hs
    obtain rfl := hu.single
    exact ⟨none, .omitted, rfl⟩
  | given ha he ih =>
    obtain ⟨u₁, hs₁, hu₁⟩ := he.ends
    obtain rfl := taken_unique hs (taken_concat hs₁)
    obtain ⟨u₁', rfl, hu₁'⟩ := hu.concat
    obtain ⟨e', hd', he'⟩ := ih hs₁ hc hw trivial hu₁' (.cons t)
    have hfront := he.fronts g
    rw [hs₁] at ha hfront
    rw [List.append_assoc]
    exact ⟨_, .given (Items.after?_congr (hu₁'.found_append hu₁.ne_nil hfront _) ha) hd',
      congrArg some he'⟩
  | @lastDeclared name _ _ _ _ _ hn hi ha ih =>
    obtain ⟨u₁, hs₁, -⟩ := hi.ends
    obtain rfl := taken_unique hs (taken_cons _ hs₁)
    obtain ⟨u₁', rfl, hu₁'⟩ := hu.lexeme
    obtain ⟨value', hd, he⟩ := ih hs₁ hc hw.tail trivial hu₁' (ht.mono fun _ h => h.declared)
    exact ⟨_, .lastDeclared hn hd (ht.after?_of_not_opener ha (by decide)),
      congrArg (fun value => [(name, value)]) he⟩
  | @declared name _ _ _ _ _ _ _ _ hn hi hm ihi ihm =>
    obtain ⟨u₁, hs₁, -⟩ := hi.ends
    obtain ⟨u₂, rfl, hne, -⟩ := hm.ends
    obtain rfl := taken_unique hs (taken_cons _ (taken_append (taken_concat hs₁) rfl))
    obtain ⟨_, rfl, hparts⟩ := hu.lexeme
    obtain ⟨_, u₂', rfl, hinner, hu₂'⟩ := hparts.split
    obtain ⟨u₁', rfl, hu₁'⟩ := hinner.concat
    rw [List.cons_append, List.append_assoc, List.append_assoc]
    obtain ⟨value', hdi, hei⟩ := ihi hs₁ hc hw.tail trivial hu₁' (.cons (u₂' ++ t))
    obtain ⟨more', hdm, hem⟩ := ihm rfl hc (hw.tail.of_taken hs₁).tail trivial hu₂'
      (ht.mono fun _ h => h.cons (suffix_append (_ :: (u₁ ++ [_])) u₂))
    exact ⟨_, .declared hn hdi hdm, congrArg₂ (fun value more => (name, value) :: more) hei hem⟩
  | initial he ih =>
    obtain ⟨u₁, hs₁, -⟩ := he.ends
    obtain rfl := taken_unique hs (taken_cons _ hs₁)
    obtain ⟨u₁', rfl, hu₁'⟩ := hu.lexeme
    obtain ⟨e', hd, he'⟩ := ih hs₁ hc hw.tail trivial hu₁'
      (ht.mono fun _ h => h.of_suffix (suffix_cons _ _) rfl)
    exact ⟨_, .initial hd, congrArg some he'⟩
  | noInitial ha =>
    obtain rfl := taken_nothing hs
    obtain rfl := hu.nil
    exact ⟨none, .noInitial (ht.after?_of_not_opener ha (by decide)), rfl⟩
  | @assign name op _ _ _ _ _ _ _ hn hp he ih =>
    obtain ⟨u₁, hs₁, -⟩ := he.ends
    obtain rfl := taken_unique hs (taken_cons _ (taken_cons _ hs₁))
    obtain ⟨_, rfl, hinner⟩ := hu.lexeme
    obtain ⟨u₁', rfl, hu₁'⟩ := hinner.lexeme
    obtain ⟨e', hd, he'⟩ := ih hs₁ hc hw.tail.tail trivial hu₁'
      (ht.mono fun _ h => h.of_suffix (suffix_append [_, _] _) rfl)
    exact ⟨_, .assign hn hp hd, congrArg (Expr.assign name op) he'⟩
  | unassigned ha he ih =>
    obtain ⟨u₁, hs₁, hu₁⟩ := he.ends
    obtain rfl := taken_unique hs hs₁
    obtain ⟨e', hd, he'⟩ := ih hs hc hw trivial hu ht
    subst hs
    exact ⟨e', .unassigned (hu.assignHead? he hu₁.ne_nil ha ht) hd, he'⟩
  | choice hts hy hn iht ihy ihn =>
    obtain ⟨u₁, hs₁, -⟩ := hts.ends
    obtain ⟨u₂, hs₂, -⟩ := hy.ends
    obtain ⟨u₃, rfl, -⟩ := hn.ends
    obtain rfl := taken_unique hs
      (taken_append (taken_append (taken_concat hs₁) (taken_concat hs₂)) rfl)
    obtain ⟨_, u₃', rfl, hparts, hu₃'⟩ := hu.split
    obtain ⟨_, _, rfl, hinner₁, hinner₂⟩ := hparts.split
    obtain ⟨u₁', rfl, hu₁'⟩ := hinner₁.concat
    obtain ⟨u₂', rfl, hu₂'⟩ := hinner₂.concat
    simp only [List.append_assoc, List.cons_append, List.nil_append]
    have hw₂ := (hw.of_taken hs₁).tail
    obtain ⟨test', hdt, het⟩ := iht hs₁ hc hw trivial hu₁'
      (.cons (u₂' ++ (.mark .colon _ :: (u₃' ++ t))))
    obtain ⟨yes', hdy, hey⟩ := ihy hs₂ hc hw₂ trivial hu₂' (.cons (u₃' ++ t))
    obtain ⟨no', hdn, hen⟩ := ihn rfl hc (hw₂.of_taken hs₂).tail trivial hu₃'
      (ht.mono fun _ h => h.of_suffix (suffix_append _ u₃) rfl)
    exact ⟨_, .choice hdt hdy hdn, (congr (congrArg₂ Expr.conditional het hey) hen :)⟩
  | noChoice hb ha ih =>
    obtain ⟨e', hd, he⟩ := ih hs hc hw trivial hu ht
    exact ⟨e', .noChoice hd (ht.after?_of_not_opener ha (by decide)), he⟩
  | binary hl hr ihl ihr =>
    obtain ⟨u₁, hs₁, -⟩ := hl.ends
    obtain ⟨u₂, rfl, hu₂⟩ := hr.ends
    obtain rfl := taken_unique hs (taken_append hs₁ rfl)
    obtain ⟨u₁', u₂', rfl, hu₁', hu₂'⟩ := hu.split
    rw [List.append_assoc]
    obtain ⟨left', hdl, hel⟩ := ihl hs₁ hc hw trivial hu₁'
      (hu₂'.quiet (hr.fronts g) fun h => by
        obtain ⟨rfl, -⟩ | ⟨he, -⟩ := hu₂
        · rw [h, List.append_nil] at ht
          exact ht
        · exact absurd h he.ne_nil)
    obtain ⟨e', hdr, her⟩ := ihr rfl hc (hw.of_taken hs₁) trivial hu₂'
      (ht.mono fun _ h => h.of_suffix (suffix_append _ _) rfl) left' hel
    exact ⟨e', .binary hdl hdr, her⟩
  | @operator _ _ _ right _ left _ _ _ op hl hr hm ihr ihm =>
    intro left' hleft
    obtain ⟨u₁, hs₁, -⟩ := hr.ends
    obtain ⟨u₂, rfl, hu₂⟩ := hm.ends
    obtain rfl := taken_unique hs (taken_cons _ (taken_append hs₁ rfl))
    obtain ⟨_, rfl, hparts⟩ := hu.lexeme
    obtain ⟨u₁', u₂', rfl, hu₁', hu₂'⟩ := hparts.split
    rw [List.cons_append, List.append_assoc]
    obtain ⟨right', hdr, her⟩ := ihr hs₁ hc hw.tail trivial hu₁'
      (hu₂'.quiet (hm.fronts g) fun h => by
        obtain ⟨rfl, -⟩ | ⟨he, -⟩ := hu₂
        · rw [h, List.append_nil] at ht
          exact ht.mono fun _ h => h.of_suffix (suffix_cons _ _) (Operator.lastOperand_apply _ _ _)
        · exact absurd h he.ne_nil)
    have hboth : (op.apply left right).thin g = (op.apply left' right').thin g' := by
      rw [op.thin_apply, op.thin_apply]
      exact congrArg₂ op.apply hleft her
    obtain ⟨e', hdm, hem⟩ := ihm rfl hc (hw.tail.of_taken hs₁) trivial hu₂'
      (ht.mono fun _ h => h.of_suffix (suffix_append (_ :: u₁) _) rfl) _ hboth
    exact ⟨e', .operator hl hdr hdm, hem⟩
  | noOperator hl =>
    intro left' hleft
    obtain rfl := taken_nothing hs
    obtain rfl := hu.nil
    exact ⟨left', .noOperator fun r hr => ht.operatorHead? hl hr, hleft⟩
  | @unary _ _ _ _ _ op he ih =>
    obtain ⟨u₁, hs₁, -⟩ := he.ends
    obtain rfl := taken_unique hs (taken_cons _ hs₁)
    obtain ⟨u₁', rfl, hu₁'⟩ := hu.lexeme
    obtain ⟨e', hd, he'⟩ := ih hs₁ hc hw.tail trivial hu₁'
      (ht.mono fun _ h => h.of_suffix (suffix_cons _ _) rfl)
    exact ⟨_, .unary hd, congrArg (Expr.unary op) he'⟩
  | stepBefore hn =>
    obtain rfl := taken_pair hs
    obtain ⟨_, rfl, hinner⟩ := hu.lexeme
    obtain ⟨_, rfl, hn'⟩ := hinner.lexeme
    obtain rfl := hn'.nil
    exact ⟨_, .stepBefore hn, rfl⟩
  | noUnary hun hst he ih =>
    obtain ⟨u₁, hs₁, hu₁⟩ := he.ends
    obtain rfl := taken_unique hs hs₁
    obtain ⟨e', hd, he'⟩ := ih hs hc hw trivial hu ht
    subst hs
    have hfound := hu.found_append hu₁.ne_nil (he.fronts g) t
    exact ⟨e', .noUnary (unaryHead?_congr hfound hun) (stepHead?_congr hfound hst) hd, he'⟩
  | stepAfter he ih =>
    obtain ⟨u₁, hs₁, -⟩ := he.ends
    obtain rfl := taken_unique hs (taken_concat hs₁)
    obtain ⟨u₁', rfl, hu₁'⟩ := hu.concat
    obtain ⟨e', hd, he'⟩ := ih hs₁ hc hw trivial hu₁' (.cons t)
    obtain rfl := Expr.eq_of_thin_ident he'
    rw [List.append_assoc]
    exact ⟨_, .stepAfter hd, rfl⟩
  | noStep he hst ih =>
    obtain ⟨u₁, hs₁, hu₁, hl⟩ := he.ends
    obtain rfl := taken_unique hs hs₁
    obtain ⟨e', hd, he'⟩ := ih hs hc hw trivial hu (ht.mono (by
      rintro _ (rfl | rfl)
      · exact hl
      · exact hl))
    refine ⟨e', .noStep hd fun x hx => ?_, he'⟩
    subst hx
    obtain rfl := Expr.eq_of_thin_ident he'.symm
    refine ht.stepHead? (hst x rfl) fun up => ?_
    have hp := hu₁.ident x rfl
    cases up <;> exact ⟨x, u, rfl, List.suffix_refl u, hp⟩
  | chain hp hm ihp ihm =>
    obtain ⟨u₁, hs₁, -⟩ := hp.ends
    obtain ⟨u₂, rfl, -⟩ := hm.ends
    obtain rfl := taken_unique hs (taken_append hs₁ rfl)
    obtain ⟨u₁', u₂', rfl, hu₁', hu₂'⟩ := hu.split
    rw [List.append_assoc]
    obtain ⟨target', hdp, hep⟩ := ihp hs₁ hc hw trivial hu₁'
      (hu₂'.quiet (hm.fronts g) fun _ => ht.mono fun _ h => h.elim)
    obtain ⟨e', hdm, hem⟩ := ihm rfl hc (hw.of_taken hs₁) trivial hu₂' ht target' hep
    exact ⟨e', .chain hdp hdm, hem⟩
  | @callProperty _ _ args _ target name _ _ _ _ _ ha hm iha ihm =>
    intro target' htarget
    obtain ⟨u₁, hs₁, -⟩ := ha.ends
    obtain ⟨u₂, rfl, -⟩ := hm.ends
    obtain rfl := taken_unique hs
      (taken_cons _ (taken_cons _ (taken_cons _ (taken_append hs₁ rfl))))
    obtain ⟨_, rfl, h₁⟩ := hu.lexeme
    obtain ⟨_, rfl, h₂⟩ := h₁.lexeme
    obtain ⟨_, rfl, hparts⟩ := h₂.lexeme
    obtain ⟨u₁', u₂', rfl, hu₁', hu₂'⟩ := hparts.split
    rw [List.cons_append, List.cons_append, List.cons_append, List.append_assoc]
    have hw₁ := hw.tail.tail.tail
    obtain ⟨args', hda, hea⟩ := iha hs₁ hc hw₁ trivial hu₁'
      (hu₂'.quiet (hm.fronts g) fun _ => ht.mono fun _ h => h.elim)
    have hcall : (callOf target name args).thin g = (callOf target' name args').thin g' := by
      rw [thin_callOf, thin_callOf]
      exact congrArg₂ (callOf · name ·) htarget hea
    obtain ⟨e', hdm, hem⟩ := ihm rfl hc (hw₁.of_taken hs₁) trivial hu₂' ht _ hcall
    exact ⟨e', .callProperty hda hdm, hem⟩
  | @property _ _ _ name _ _ _ _ ha hm ih =>
    intro target' htarget
    obtain ⟨u₁, rfl, -⟩ := hm.ends
    obtain rfl := taken_unique hs (taken_cons _ (taken_cons _ rfl))
    obtain ⟨_, rfl, hinner⟩ := hu.lexeme
    obtain ⟨u₁', rfl, hu₁'⟩ := hinner.lexeme
    obtain ⟨e', hd, he⟩ := ih rfl hc hw.tail.tail trivial hu₁' ht
      (.member target' (.value (.string name))) (congrArg (Expr.member · _) htarget)
    have hq := hu₁'.quiet (hm.fronts g) fun _ => ht
    exact ⟨e', .property (hq.after? ha fun _ => .inl rfl) hd, he⟩
  | index hk hm ihk ihm =>
    intro target' htarget
    obtain ⟨u₁, hs₁, -⟩ := hk.ends
    obtain ⟨u₂, rfl, -⟩ := hm.ends
    obtain rfl := taken_unique hs (taken_cons _ (taken_append (taken_concat hs₁) rfl))
    obtain ⟨_, rfl, hparts⟩ := hu.lexeme
    obtain ⟨_, u₂', rfl, hinner, hu₂'⟩ := hparts.split
    obtain ⟨u₁', rfl, hu₁'⟩ := hinner.concat
    rw [List.cons_append, List.append_assoc, List.append_assoc]
    obtain ⟨key', hdk, hek⟩ := ihk hs₁ hc hw.tail trivial hu₁' (.cons (u₂' ++ t))
    obtain ⟨e', hdm, hem⟩ := ihm rfl hc (hw.tail.of_taken hs₁).tail trivial hu₂' ht
      (.member target' key') (congrArg₂ Expr.member htarget hek)
    exact ⟨e', .index hdk hdm, hem⟩
  | @call _ _ _ _ name _ _ _ ha hm iha ihm =>
    intro target' htarget
    obtain rfl := Expr.eq_of_thin_ident htarget
    obtain ⟨u₁, hs₁, -⟩ := ha.ends
    obtain ⟨u₂, rfl, -⟩ := hm.ends
    obtain rfl := taken_unique hs (taken_cons _ (taken_append hs₁ rfl))
    obtain ⟨_, rfl, hparts⟩ := hu.lexeme
    obtain ⟨u₁', u₂', rfl, hu₁', hu₂'⟩ := hparts.split
    rw [List.cons_append, List.append_assoc]
    obtain ⟨args', hda, hea⟩ := iha hs₁ hc hw.tail trivial hu₁'
      (hu₂'.quiet (hm.fronts g) fun _ => ht.mono fun _ h => h.elim)
    obtain ⟨e', hdm, hem⟩ := ihm rfl hc (hw.tail.of_taken hs₁) trivial hu₂' ht
      (.call name args') (congrArg (Expr.call name) hea)
    exact ⟨e', .call hda hdm, hem⟩
  | chainEnd hd hb hp =>
    intro target' htarget
    obtain rfl := taken_nothing hs
    obtain rfl := hu.nil
    exact ⟨target', .chainEnd (ht.after?_of_not_opener hd (by decide))
      (ht.after? hb fun _ => .inr rfl) (ht.after? hp fun _ => .inl rfl), htarget⟩
  | noExpressions =>
    obtain rfl := taken_item hs
    obtain rfl := hu.single
    exact ⟨[], .noExpressions, rfl⟩
  | lastExpression hne ha he ih =>
    obtain ⟨u₁, hs₁, hu₁⟩ := he.ends
    obtain rfl := taken_unique hs (taken_concat hs₁)
    obtain ⟨u₁', rfl, hu₁'⟩ := hu.concat
    obtain ⟨e', hd, he'⟩ := ih hs₁ hc hw trivial hu₁' (.cons t)
    have hfront := he.fronts g
    rw [hs₁] at ha hfront
    rw [List.append_assoc]
    exact ⟨_, .lastExpression hne
      (Items.after?_congr (hu₁'.found_append hu₁.ne_nil hfront _) ha) hd,
      congrArg (fun e => [e]) he'⟩
  | expressions ha he hm ihe ihm =>
    obtain ⟨u₁, hs₁, hu₁⟩ := he.ends
    obtain ⟨u₂, rfl, -⟩ := hm.ends
    obtain rfl := taken_unique hs (taken_append (taken_concat hs₁) rfl)
    obtain ⟨_, u₂', rfl, hinner, hu₂'⟩ := hu.split
    obtain ⟨u₁', rfl, hu₁'⟩ := hinner.concat
    obtain ⟨e', hde, hee⟩ := ihe hs₁ hc hw trivial hu₁' (.cons (u₂' ++ t))
    obtain ⟨more', hdm, hem⟩ := ihm rfl hc (hw.of_taken hs₁).tail trivial hu₂' ht
    have hfront := he.fronts g
    rw [hs₁] at ha hfront
    rw [List.append_assoc, List.append_assoc]
    exact ⟨_, .expressions (Items.after?_congr (hu₁'.found_append hu₁.ne_nil hfront _) ha) hde hdm,
      congrArg₂ List.cons hee hem⟩
  | noFields =>
    obtain rfl := taken_item hs
    obtain rfl := hu.single
    exact ⟨[], .noFields, rfl⟩
  | @lastField name _ _ _ _ _ _ _ hk hval ih =>
    obtain ⟨u₁, hs₁, -⟩ := hval.ends
    obtain rfl := taken_unique hs (taken_cons _ (taken_concat hs₁))
    obtain ⟨_, rfl, hinner⟩ := hu.lexeme
    obtain ⟨u₁', rfl, hu₁'⟩ := hinner.concat
    obtain ⟨e', hd, he⟩ := ih hs₁ hc hw.tail trivial hu₁' (.cons t)
    rw [List.cons_append, List.append_assoc]
    exact ⟨_, .lastField hk hd, congrArg (fun e => [(name, e)]) he⟩
  | @fields name _ _ _ _ _ _ _ _ _ hk hval hm ihv ihm =>
    obtain ⟨u₁, hs₁, -⟩ := hval.ends
    obtain ⟨u₂, rfl, -⟩ := hm.ends
    obtain rfl := taken_unique hs (taken_cons _ (taken_append (taken_concat hs₁) rfl))
    obtain ⟨_, rfl, hparts⟩ := hu.lexeme
    obtain ⟨_, u₂', rfl, hinner, hu₂'⟩ := hparts.split
    obtain ⟨u₁', rfl, hu₁'⟩ := hinner.concat
    rw [List.cons_append, List.append_assoc, List.append_assoc]
    obtain ⟨e', hdv, hev⟩ := ihv hs₁ hc hw.tail trivial hu₁' (.cons (u₂' ++ t))
    obtain ⟨more', hdm, hem⟩ := ihm rfl hc (hw.tail.of_taken hs₁).tail trivial hu₂' ht
    exact ⟨_, .fields hk hdv hdm, congrArg₂ (fun e more => (name, e) :: more) hev hem⟩
  | fieldValue he ih =>
    obtain ⟨u₁, hs₁, -⟩ := he.ends
    obtain rfl := taken_unique hs (taken_cons _ hs₁)
    obtain ⟨u₁', rfl, hu₁'⟩ := hu.lexeme
    obtain ⟨e', hd, he'⟩ := ih hs₁ hc hw.tail trivial hu₁'
      (ht.mono fun _ h => h.of_suffix (suffix_cons _ _) rfl)
    exact ⟨e', .fieldValue hd, he'⟩
  | shorthand ha =>
    obtain rfl := taken_nothing hs
    obtain rfl := hu.nil
    exact ⟨_, .shorthand (ht.after?_of_not_opener ha (by decide)), rfl⟩
  | noParams =>
    obtain rfl := taken_item hs
    obtain rfl := hu.single
    exact ⟨[], .noParams, rfl⟩
  | lastParam hname =>
    obtain rfl := taken_pair hs
    obtain ⟨_, rfl, hinner⟩ := hu.lexeme
    obtain rfl := hinner.single
    exact ⟨_, .lastParam hname, rfl⟩
  | @params name _ _ _ _ _ _ hname hm ih =>
    obtain ⟨u₁, hs₁, -⟩ := hm.ends
    obtain rfl := taken_unique hs (taken_cons _ (taken_cons _ hs₁))
    obtain ⟨_, rfl, hinner⟩ := hu.lexeme
    obtain ⟨u₁', rfl, hu₁'⟩ := hinner.lexeme
    obtain ⟨more', hd, he⟩ := ih hs₁ hc hw.tail.tail trivial hu₁' (ht.mono fun _ h => h.elim)
    exact ⟨_, .params hname hd, congrArg (name :: ·) he⟩
  | functionBody hp hb ihp ihb =>
    obtain ⟨u₁, hs₁, -⟩ := hp.ends
    obtain ⟨u₂, rfl, -⟩ := hb.ends
    obtain rfl := taken_unique hs (taken_cons _ (taken_append (taken_concat hs₁) rfl))
    obtain ⟨_, rfl, hparts⟩ := hu.lexeme
    obtain ⟨_, u₂', rfl, hinner, hu₂'⟩ := hparts.split
    obtain ⟨u₁', rfl, hu₁'⟩ := hinner.concat
    rw [List.cons_append, List.append_assoc, List.append_assoc]
    obtain ⟨params', hdp, hep⟩ := ihp hs₁ hc hw.tail trivial hu₁' (.cons (u₂' ++ t))
    have hw₂ := hw.tail.of_taken hs₁
    obtain ⟨body', hdb, heb⟩ := ihb rfl (.function _ _) hw₂.tail (.brace hw₂.suffix) hu₂'
      (ht.mono fun _ h => h.elim)
    exact ⟨_, .functionBody hdp hdb, congrArg₂ Expr.function hep heb⟩
  | namedFunction hname hp hb ihp ihb =>
    obtain ⟨u₁, hs₁, -⟩ := hp.ends
    obtain ⟨u₂, rfl, -⟩ := hb.ends
    obtain rfl := taken_unique hs
      (taken_cons _ (taken_cons _ (taken_append (taken_concat hs₁) rfl)))
    obtain ⟨_, rfl, hfirst⟩ := hu.lexeme
    obtain ⟨_, rfl, hparts⟩ := hfirst.lexeme
    obtain ⟨_, u₂', rfl, hinner, hu₂'⟩ := hparts.split
    obtain ⟨u₁', rfl, hu₁'⟩ := hinner.concat
    rw [List.cons_append, List.cons_append, List.append_assoc, List.append_assoc]
    have hw₁ := hw.tail.tail
    obtain ⟨params', hdp, hep⟩ := ihp hs₁ hc hw₁ trivial hu₁' (.cons (u₂' ++ t))
    have hw₂ := hw₁.of_taken hs₁
    obtain ⟨body', hdb, heb⟩ := ihb rfl (.function _ _) hw₂.tail (.brace hw₂.suffix) hu₂'
      (ht.mono fun _ h => h.elim)
    exact ⟨_, .namedFunction hname hdp hdb, congrArg₂ Expr.function hep heb⟩
  | number =>
    obtain rfl := taken_item hs
    obtain rfl := hu.single
    exact ⟨_, .number, rfl⟩
  | string =>
    obtain rfl := taken_item hs
    obtain rfl := hu.single
    exact ⟨_, .string, rfl⟩
  | constant ha =>
    obtain rfl := taken_item hs
    obtain rfl := hu.single
    exact ⟨_, .constant ha, rfl⟩
  | self ha =>
    obtain rfl := taken_item hs
    obtain rfl := hu.single
    exact ⟨_, .self ha, rfl⟩
  | ident ha =>
    obtain rfl := taken_item hs
    obtain rfl := hu.single
    exact ⟨_, .ident ha, rfl⟩
  | function ha hf ih =>
    obtain ⟨u₁, hs₁, -⟩ := hf.ends
    obtain rfl := taken_unique hs (taken_cons _ hs₁)
    obtain ⟨u₁', rfl, hu₁'⟩ := hu.lexeme
    obtain ⟨e', hd, he⟩ := ih hs₁ hc hw.tail trivial hu₁' (ht.mono fun _ h => h.elim)
    exact ⟨e', .function ha hd, he⟩
  | parens he ih =>
    obtain ⟨u₁, hs₁, -⟩ := he.ends
    obtain rfl := taken_unique hs (taken_cons _ (taken_concat hs₁))
    obtain ⟨_, rfl, hinner⟩ := hu.lexeme
    obtain ⟨u₁', rfl, hu₁'⟩ := hinner.concat
    obtain ⟨e', hd, he'⟩ := ih hs₁ hc hw.tail trivial hu₁' (.cons t)
    rw [List.cons_append, List.append_assoc]
    exact ⟨e', .parens hd, he'⟩
  | array he ih =>
    obtain ⟨u₁, hs₁, -⟩ := he.ends
    obtain rfl := taken_unique hs (taken_cons _ hs₁)
    obtain ⟨u₁', rfl, hu₁'⟩ := hu.lexeme
    obtain ⟨items', hd, he'⟩ := ih hs₁ hc hw.tail trivial hu₁' (ht.mono fun _ h => h.elim)
    exact ⟨_, .array hd, congrArg Expr.array he'⟩
  | object hf ih =>
    obtain ⟨u₁, hs₁, -⟩ := hf.ends
    obtain rfl := taken_unique hs (taken_cons _ hs₁)
    obtain ⟨u₁', rfl, hu₁'⟩ := hu.lexeme
    obtain ⟨fields', hd, he⟩ := ih hs₁ hc hw.tail trivial hu₁' (ht.mono fun _ h => h.elim)
    exact ⟨_, .object hd, congrArg Expr.object he⟩

theorem Rule.stays_of_total (hg : Total g) (r : Rule α) (v : α) (whole : List Item) :
    r.Stays g whole v whole := by
  cases r with
  | statement => exact ⟨.front, v.gone_of_total hg⟩
  | afterKeyword => exact fun body _ => body.gone_of_total hg
  | alternative => exact fun stmt _ => stmt.gone_of_total hg
  | block => exact .front
  | _ => trivial

theorem Rule.thin_some (r : Rule α) (v : α) : r.thin some v = v := by
  cases r <;> simp only [Stmt.thin_some, Stmt.thinAll_some, Stmt.thinOption_some, Expr.thin_some,
    Expr.thinAll_some, Expr.thinOption_some, Expr.thinFields_some, Expr.thinDecls_some]

theorem Rule.Rereads.derives {r : Rule α} (h : r.Rereads some some c s t v) :
    Derives c r s v t := by
  have hthin (v' : α) (hd : Derives c r s v' t) (he : r.thin some v = r.thin some v') :
      Derives c r s v t := by
    rw [r.thin_some, r.thin_some] at he
    exact he ▸ hd
  cases r with
  | binaryFrom level left =>
    obtain ⟨e', hd, he⟩ := h left rfl
    exact hthin e' hd he
  | chainFrom target =>
    obtain ⟨e', hd, he⟩ := h target rfl
    exact hthin e' hd he
  | _ =>
    obtain ⟨v', hd, he⟩ := h
    exact hthin v' hd he

/-- A rule gives the same in front of anything at which it stops. -/
theorem Derives.before (h : Derives c r s v rest) (hs : s = u ++ rest) (hc : c.Permits c')
    (ht : Quiet (r.GoesOn v u) rest t) : Derives c' r (u ++ t) v t :=
  (h.reread hs hc ⟨Items.thinnable_of_total total_some s, suffix_refl s⟩
    (r.stays_of_total total_some v s) (.refl u) ht).derives

end Stencil.Script
