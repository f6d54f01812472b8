/-
# Items of a text that two longer texts share

A tag ends with an angle bracket and what is in braces with a brace. So reading such an item
of a template looks no further than its last character, and it does the same wherever the item
stands: open nodes that are alike are alike afterwards.

* `carried_valueChunks`, `carried_attributes` : the values and attributes of a start tag;
* `closed_tag` : tags of elements;
* `closed_mustache` : what is in braces;
* `settled_item` : the items of a template that are no text.
-/
import ComponentDivision.Proofs.Template.Carried

namespace ComponentDivision

namespace Reader

variable {S : Shared}

/-! ## Ends of values and tags -/

/-- What stands at a place, and the character after it, unless the tag ends at this place. -/
theorem rest_right {d : Cursor} {ch : Char} {cs : Text} (hd : S.Pending '>' d)
    (hrest : (S.left.cursor d).rest = ch :: cs) :
    ∃ cs', (S.right.cursor d).rest = ch :: cs' ∧ (ch = '>' ∨ cs'.head? = cs.head?) := by
  simp only [Surround.cursor] at hrest ⊢
  rcases hd with hafter | hmem
  · rw [← hafter]
    exact ⟨cs, hrest, .inr rfl⟩
  · obtain ⟨y, ys, hd⟩ := List.exists_cons_of_ne_nil (List.ne_nil_of_mem hmem)
    rw [hd] at hrest hmem ⊢
    obtain ⟨rfl, rfl⟩ := List.cons.inj hrest
    refine ⟨ys ++ S.right.after, rfl, ?_⟩
    rcases List.mem_cons.1 hmem with hy | hys
    · exact .inl hy.symm
    · exact .inr (head?_swap (.inr (List.ne_nil_of_mem hys)))

/-- Whether a start tag ends before a character. -/
theorem endsTag_congr {ch : Char} {cs cs' : Text} (h : ch = '>' ∨ cs'.head? = cs.head?) :
    (ch == '>' || ch == '/' && cs'.head? == some '>')
      = (ch == '>' || ch == '/' && cs.head? == some '>') := by
  rcases h with rfl | h
  · rfl
  · rw [h]

/-- Whether a value ends before a character. -/
theorem endsValue_congr {ch : Char} {cs cs' : Text} (quote : Option Char)
    (h : ch = '>' ∨ cs'.head? = cs.head?) : endsValue quote ch cs' = endsValue quote ch cs := by
  cases quote with
  | some q => rfl
  | none => rw [endsValue, endsValue, Bool.or_assoc, Bool.or_assoc, endsTag_congr h]

/-- The text that a value begins with, if the bracket that ends the tag is after it. -/
theorem valueTextLength_swap {quote : Option Char} {u t t' : Text}
    (h : t = t' ∨ '>' ∈ u.drop (valueTextLength quote (u ++ t))) :
    valueTextLength quote (u ++ t') = valueTextLength quote (u ++ t) := by
  rcases h with rfl | h
  · rfl
  · induction u with
    | nil =>
      rw [List.drop_nil] at h
      cases h
    | cons c cs ih =>
      have hnext : c = '>' ∨ (cs ++ t').head? = (cs ++ t).head? := by
        rcases List.mem_cons.1 (List.mem_of_mem_drop h) with hc | hcs
        · exact .inl hc.symm
        · exact .inr (head?_swap (.inr (List.ne_nil_of_mem hcs)))
      rw [List.cons_append] at h ⊢
      rw [List.cons_append, valueTextLength, valueTextLength, endsValue_congr quote hnext]
      rw [valueTextLength] at h
      split
      · rfl
      · rename_i hends
        rw [if_neg hends, Nat.add_comm, List.drop_succ_cons] at h
        rw [ih h]

/-! ## Values -/

theorem carried_refuseTag {x : Char} : Carried S x Likeness.same.rel refuseTag refuseTag :=
  carried_peek?.bind fun
    | none, _, rfl => .pure rfl
    | some _, _, rfl => (carried_fail _).ite (.pure rfl)

/-- An expression in the braces of a value. -/
theorem carried_valueMustache (start start' : Nat) :
    Carried S '>' (Likeness.node S.move).rel (valueMustache S.leftContext start)
      (valueMustache S.rightContext start') :=
  carried_skipBlank.bind fun _ _ _ => carried_refuseTag.bind fun _ _ _ =>
    (carried_readExpressionAt (by decide) rfl).bind fun
      | _, _, rfl => (carried_expect _).bind fun _ _ _ =>
        settled_position.carried.bind fun _ _ _ =>
          .pure (Node.like_leaf rfl)

/-- The text that a value begins with. -/
theorem valueText_right {quote : Option Char} {c d : Cursor}
    (h : (S.left.cursor c).advance (valueTextLength quote (S.left.cursor c).rest)
      = S.left.cursor d) (hd : S.Pending '>' d) :
    (S.right.cursor c).advance (valueTextLength quote (S.right.cursor c).rest)
        = S.right.cursor d ∧
      Node.AllLike S.move (valueText quote (S.left.cursor c))
        (valueText quote (S.right.cursor c)) := by
  obtain ⟨hle, rfl⟩ := Surround.advance_of_cursor (valueTextLength_le quote _) h
  have hlength : valueTextLength quote (S.right.cursor c).rest
      = valueTextLength quote (S.left.cursor c).rest := valueTextLength_swap hd
  refine ⟨?_, ?_⟩
  · rw [hlength, S.right.cursor_advance hle]
  · rw [valueText, valueText, hlength]
    split
    · rfl
    · rfl

/-- **The chunks of a value.** -/
theorem carried_valueChunks (quote : Option Char) :
    Carried S '>' (Likeness.nodes S.move).rel (valueChunks S.leftContext quote)
      (valueChunks S.rightContext quote) := by
  refine ⟨forward_valueChunks _ quote, fun {c chunks d} hc hok hd => ?_⟩
  generalize hcursor : S.left.cursor c = c₀ at hok
  fun_induction valueChunks S.leftContext quote c₀ generalizing c chunks with
  | case1 => cases hok
  | case2 =>
    rename_i c₀ n c₁ text ch cs hrest hends
    subst hcursor
    obtain ⟨htext, hplace⟩ := Prod.mk.inj (Except.ok.inj hok)
    obtain ⟨hplace', hlike⟩ := valueText_right hplace hd
    rw [hplace] at hrest
    obtain ⟨cs', hrest', hnext⟩ := rest_right hd hrest
    refine ⟨valueText quote (S.right.cursor c), ?_, ?_⟩
    · rw [valueChunks_of_cons hplace' hrest', endsValue_congr quote hnext, if_pos hends]
    · rw [← htext]
      exact hlike
  | case3 => cases hok
  | case4 => cases hok
  | case5 =>
    -- a text, an expression and the rest of the value; the bracket is ahead of all three
    rename_i c₀ n c₁ text ch cs hrest hends chunk c₂ hchunk more e hmore ih
    subst hcursor
    obtain ⟨hchunks, hplace⟩ := Prod.mk.inj (Except.ok.inj hok)
    rw [hplace] at hmore
    have hbegin : (S.left.cursor c).Reaches c₁ := Cursor.reaches_advance (valueTextLength_le _ _)
    obtain ⟨m₁, m₂, h₁, hnext, rfl, hm₁, hlength, hm₂, hend⟩ := Surround.exists_part hbegin hrest
      (forward_valueMustache _ _ hchunk) (forward_valueChunks _ quote hmore)
    have hpending₂ := hend.pending hd
    have hpending₁ := ((Cursor.reaches_advance hlength).trans hm₂).pending hpending₂
    have hon := (hm₁.trans (Cursor.reaches_advance hlength)).on hc
    rw [hnext] at hchunk
    obtain ⟨chunk', hchunk', hlike⟩ := (carried_valueMustache _ _).move hon hchunk hpending₂
    obtain ⟨more', hmore', hlikes⟩ := ih (hm₂.on hon) rfl hmore
    obtain ⟨hplace', htext⟩ := valueText_right h₁ hpending₁
    rw [h₁] at hrest
    obtain ⟨cs', hrest', hhead⟩ := rest_right hpending₁ hrest
    refine ⟨valueText quote (S.right.cursor c) ++ chunk' :: more', ?_, ?_⟩
    · rw [valueChunks_of_cons hplace' hrest', endsValue_congr quote hhead, if_neg hends,
        ← S.right.cursor_advance hlength]
      exact bind_eq_ok.2 ⟨_, _, hchunk', bind_eq_ok.2 ⟨_, _, hmore', rfl⟩⟩
    · rw [← hchunks]
      exact htext.append (.cons hlike hlikes)

/-- The value of an attribute. -/
theorem carried_attributeValue :
    Carried S '>' (Likeness.nodes S.move).rel (attributeValue S.leftContext)
      (attributeValue S.rightContext) := by
  refine carried_peek?.bind fun
    | none, _, rfl => carried_fail _
    | some q, _, rfl => ?_
  show Carried S '>' _ (if q == '"' || q == '\'' then _ else _)
    (if q == '"' || q == '\'' then _ else _)
  by_cases hq : (q == '"' || q == '\'') = true
  · rw [if_pos hq, if_pos hq]
    have heat : Carried S '>' Likeness.same.rel (eat [q]) (eat [q]) := by
      refine carried_eat fun hmem => ?_
      rw [← List.mem_singleton.1 hmem] at hq
      cases hq
    exact heat.bind fun _ _ _ => (carried_valueChunks _).bind fun _ _ hchunks =>
      heat.bind fun _ _ _ => .pure hchunks
  · rw [if_neg hq, if_neg hq]
    refine (carried_valueChunks _).bind fun chunks chunks' hchunks => ?_
    rw [Node.AllLike.isEmpty hchunks]
    exact (carried_fail _).ite (.pure hchunks)

/-! ## Attributes -/

/-- An attribute by its name and its value. -/
theorem namedAttribute_like {name : Text} {start stop : Nat} {value value' : Option (List Node)}
    {a : Node} (hvalue : Option.Rel (Node.AllLike S.move) value value')
    (h : namedAttribute name start stop value = .ok a) (start' stop' : Nat) :
    ∃ a', namedAttribute name start' stop' value' = .ok a' ∧ a.Like S.move a' := by
  have hvalues :
      Node.mapValue (Label.gist id) value' = Node.mapValue (Label.gist S.move) value := by
    rw [Node.mapValue_eq, Node.mapValue_eq]
    cases hvalue with
    | none => rfl
    | some hchunks => exact congrArg some hchunks
  simp only [namedAttribute] at h ⊢
  split at h
  · rename_i directiveName kind _ _
    cases hvalue with
    | none =>
      cases kind with
      | _ =>
        cases h
        exact ⟨_, rfl, Node.like_parts rfl rfl rfl rfl⟩
    | @some chunks chunks' hchunks =>
      -- a style directive keeps its chunks; any other directive has one, an expression
      cases kind with
      | styleDirective =>
        cases h
        exact ⟨_, rfl, Node.like_parts rfl rfl hvalues rfl⟩
      | _ =>
        cases chunks with
        | nil => cases h
        | cons chunk more =>
          obtain ⟨chunk', more', rfl, hchunk, hmore⟩ := hchunks.exists_cons
          simp only [hmore.isEmpty, hchunk.kind, hchunk.expression] at h ⊢
          split at h
          · rename_i hone
            cases h
            rw [if_pos hone]
            exact ⟨_, rfl, Node.like_leaf (Label.like_iff.2 ⟨rfl, rfl, rfl, rfl, rfl, rfl⟩)⟩
          · cases h
  · cases h
    exact ⟨_, rfl, Node.like_parts rfl rfl hvalues rfl⟩

/-- White space does not hide what follows the text. -/
theorem carried_valueFollows : Carried S '>' Likeness.same.rel valueFollows valueFollows := by
  refine ⟨forward_valueFollows, fun {c a d} _ hok hd => ?_⟩
  obtain ⟨rfl, hcursor⟩ := Prod.mk.inj (Except.ok.inj hok)
  obtain rfl := Surround.eq_of_cursor hcursor
  have hhead : ((S.right.cursor c).rest.dropWhile isBlank).head?
      = ((S.left.cursor c).rest.dropWhile isBlank).head? := by
    simp only [Surround.cursor]
    rcases hd with hd | hd
    · rw [hd]
    · have hne : c.rest.dropWhile isBlank ≠ [] := by
        intro hnil
        cases List.dropWhile_eq_nil_iff.1 hnil '>' hd
      rw [List.dropWhile_append, if_neg (by rwa [List.isEmpty_iff]), List.dropWhile_append,
        if_neg (by rwa [List.isEmpty_iff]), head?_swap (.inr hne)]
  refine ⟨_, rfl, ?_⟩
  rw [hhead]
  rfl

/-- An attribute in braces. -/
theorem carried_bracedAttribute (start start' : Nat) :
    Carried S '>' (Likeness.node S.move).rel (bracedAttribute S.leftContext start)
      (bracedAttribute S.rightContext start') := by
  refine carried_skipBlank.bind fun _ _ _ => (carried_eat (by decide)).bind fun
    | _, _, rfl => Carried.ite ?_ ?_
  · exact (carried_readExpressionAt (by decide) rfl).bind fun
      | _, _, rfl => (carried_expect _).bind fun _ _ _ =>
        settled_position.carried.bind fun _ _ _ =>
          .pure (Node.like_leaf rfl)
  · refine (carried_delimited (by decide) rfl).bind_of (fun d => ?_) fun d d' hd => ?_
    · refine Forward.ite ?_ (forward_failAt _ _)
      exact (forward_expect _).bind fun _ => (forward_checked _ d).bind fun _ =>
        forward_position.bind fun _ => Forward.pure _
    · rw [text_of_twin hd]
      refine Carried.ite ?_ (carried_failAt _ _)
      exact (carried_expect _).bind fun _ _ _ => (settled_checked hd).carried.bind fun
        | _, _, rfl => settled_position.carried.bind fun _ _ _ =>
          .pure (Node.like_parts rfl rfl rfl rfl)

/-- An attribute without braces. -/
theorem carried_unbracedAttribute (start start' : Nat) (first : Char) :
    Carried S '>' (Likeness.node S.move).rel (unbracedAttribute S.leftContext start first)
      (unbracedAttribute S.rightContext start' first) := by
  refine (carried_takeWhile _).bind fun
    | more, _, rfl => carried_valueFollows.bind fun
      | _, _, rfl => Carried.ite ?_ ?_
  · refine carried_skipBlank.bind fun _ _ _ => (carried_eat (by decide)).bind fun _ _ _ =>
      carried_skipBlank.bind fun _ _ _ => carried_attributeValue.bind fun _ _ hvalue =>
        settled_position.carried.bind fun _ _ _ => Settled.carried ?_
    exact settled_ofExcept fun _ ha => namedAttribute_like (.some hvalue) ha _ _
  · refine settled_position.carried.bind fun _ _ _ => Settled.carried ?_
    exact settled_ofExcept fun _ ha => namedAttribute_like .none ha _ _

theorem carried_oneAttribute (start start' : Nat) (first : Char) :
    Carried S '>' (Likeness.node S.move).rel (oneAttribute S.leftContext start first)
      (oneAttribute S.rightContext start' first) :=
  (carried_bracedAttribute start start').ite <|
    (carried_failAt _ _).ite (carried_unbracedAttribute start start' first)

theorem seeAttribute_like {seen seen' : List Text} {a a' : Node} (ha : a.Like S.move a')
    (h : seeAttribute seen a = .ok seen') : seeAttribute seen a' = .ok seen' := by
  unfold seeAttribute at h ⊢
  rw [ha.kind, ha.name]
  split at h
  · split at h
    · cases h
    · rename_i hseen
      rw [if_neg hseen]
      exact h
  · exact h

/-- **The attributes of a start tag.** -/
theorem carried_attributes (seen : List Text) :
    Carried S '>' (Likeness.nodes S.move).rel (attributes S.leftContext seen)
      (attributes S.rightContext seen) := by
  refine ⟨forward_attributes _ seen, fun {c as d} hc hok hd => ?_⟩
  generalize hcursor : S.left.cursor c = c₀ at hok
  fun_induction attributes S.leftContext seen c₀ generalizing c as with
  | case1 => cases hok
  | case2 =>
    rename_i seen c₀ c₁ ch cs hrest hends
    subst hcursor
    obtain ⟨rfl, hplace⟩ := Prod.mk.inj (Except.ok.inj hok)
    obtain ⟨htake, hplace'⟩ := takeWhile_right hplace hd.rest_ne_nil
    rw [hplace] at hrest
    obtain ⟨cs', hrest', hnext⟩ := rest_right hd hrest
    rw [← htake] at hplace'
    refine ⟨[], ?_, rfl⟩
    rw [attributes_of_cons hplace' hrest', endsTag_congr hnext, if_pos hends]
  | case3 => cases hok
  | case4 => cases hok
  | case5 => cases hok
  | case6 =>
    rename_i seen c₀ c₁ ch cs hrest hends a c₂ ha seen' hseen more e hmore ih
    subst hcursor
    obtain ⟨rfl, hplace⟩ := Prod.mk.inj (Except.ok.inj hok)
    rw [hplace] at hmore
    have hbegin : (S.left.cursor c).Reaches c₁ :=
      Cursor.reaches_advance (List.takeWhile_prefix _).length_le
    obtain ⟨m₁, m₂, h₁, hnext, rfl, hm₁, hlength, hm₂, hend⟩ := Surround.exists_part hbegin hrest
      (forward_oneAttribute _ _ _ ha) (forward_attributes _ seen' hmore)
    have hpending₂ := hend.pending hd
    have hpending₁ := ((Cursor.reaches_advance hlength).trans hm₂).pending hpending₂
    have hon := (hm₁.trans (Cursor.reaches_advance hlength)).on hc
    rw [hnext] at ha
    obtain ⟨a', ha', hlike⟩ := (carried_oneAttribute _ _ ch).move hon ha hpending₂
    obtain ⟨more', hmore', hlikes⟩ := ih (hm₂.on hon) rfl hmore
    obtain ⟨htake, hplace'⟩ := takeWhile_right h₁ hpending₁.rest_ne_nil
    rw [h₁] at hrest
    obtain ⟨cs', hrest', hhead⟩ := rest_right hpending₁ hrest
    rw [← htake] at hplace'
    refine ⟨a' :: more', ?_, .cons hlike hlikes⟩
    rw [attributes_of_cons hplace' hrest', endsTag_congr hhead, if_neg hends,
      ← S.right.cursor_advance hlength]
    exact bind_eq_ok.2 ⟨a', _, ha', bind_eq_ok.2 ⟨seen', _,
      ofExcept_eq_ok.2 ⟨seeAttribute_like hlike hseen, rfl⟩, bind_eq_ok.2 ⟨_, _, hmore', rfl⟩⟩⟩

/-! ## Tags -/

variable {G : Ground S.move} {st st' : Stack}

/-- A comment. -/
theorem closed_comment (h : G.Alike st st') (start start' : Nat) :
    Closed S '>' G.Follows (comment start st) (comment start' st') := by
  have hfound {c d : Cursor} {st₁ : Stack}
      (hok : comment start st (S.left.cursor c) = .ok (st₁, S.left.cursor d)) :
      ∃ n data stop, Text.find? "-->".toList c.rest = some n ∧ n + 3 ≤ c.rest.length ∧
        d = c.advance (n + 3) ∧
        st₁ = st.receive (.leaf { kind := .comment, start, stop, data }) := by
    unfold comment at hok
    split at hok
    · cases hok
    · rename_i n hn
      obtain ⟨rfl, hcursor⟩ := Prod.mk.inj (Except.ok.inj hok)
      obtain ⟨hle, rfl⟩ := Surround.advance_of_cursor (Text.find?_add_length_le hn) hcursor
      exact ⟨n, _, _, (Text.find?_append_iff _ hle).1 hn, hle, rfl, rfl⟩
  refine ⟨⟨forward_comment start st, fun {c st₁ d} _ hok => ?_⟩, fun {c st₁ d} _ hok => ?_⟩
  · obtain ⟨n, data, stop, hn, hle, rfl, rfl⟩ := hfound hok
    have hright : Text.find? "-->".toList (S.right.cursor c).rest = some n :=
      (Text.find?_append_iff _ hle).2 hn
    rw [S.right.cursor_advance hle]
    simp only [comment, hright]
    refine ⟨_, rfl, (h.receive ?_).follows⟩
    exact Node.like_leaf rfl
  · obtain ⟨n, data, stop, hn, -⟩ := hfound hok
    refine .inr (List.mem_of_mem_drop ((Text.prefix_drop_of_find? hn).subset ?_))
    decide

/-- Whether a text begins with a closing tag does not depend on what follows a bracket that stands
after the name. -/
theorem closingTagLength?_append {name u : Text} (t : Text)
    (h : '>' ∈ u.drop ('<' :: '/' :: name).length) :
    closingTagLength? name (u ++ t) = closingTagLength? name u := by
  have hlen : ('<' :: '/' :: name).length < u.length := by
    have := List.length_pos_of_mem h
    rw [List.length_drop] at this
    omega
  have hblanks : ((u ++ t).drop ('<' :: '/' :: name).length).takeWhile isBlank
      = (u.drop ('<' :: '/' :: name).length).takeWhile isBlank := by
    rw [List.drop_append_of_le_length (by omega), takeWhile_append_of_mem h rfl]
  have hopening : ('<' :: '/' :: name).isPrefixOf (u ++ t) = ('<' :: '/' :: name).isPrefixOf u := by
    rw [Bool.eq_iff_iff, List.isPrefixOf_iff_prefix, List.isPrefixOf_iff_prefix]
    constructor
    · intro hp
      exact List.prefix_of_prefix_length_le hp (List.prefix_append u t) (by omega)
    · exact fun hp => hp.trans (List.prefix_append u t)
  -- the bracket is no blank, so it stands at or after the place where the blanks end
  have hlt : ('<' :: '/' :: name).length
      + ((u.drop ('<' :: '/' :: name).length).takeWhile isBlank).length < u.length := by
    have hne : ((u.drop ('<' :: '/' :: name).length).takeWhile isBlank).length
        ≠ (u.drop ('<' :: '/' :: name).length).length := by
      intro heq
      have hall := List.takeWhile_eq_self_iff.1 ((List.takeWhile_prefix isBlank).eq_of_length heq)
      cases hall '>' h
    have hle := (List.takeWhile_prefix isBlank (l := u.drop ('<' :: '/' :: name).length)).length_le
    rw [List.length_drop] at hne hle
    omega
  unfold closingTagLength?
  dsimp only
  rw [hblanks, hopening, List.head?_drop, List.head?_drop, List.getElem?_append_left hlt]

/-- A closing tag ends with a bracket, after its name. -/
theorem getElem?_of_closingTagLength? {name t : Text} {n : Nat}
    (h : closingTagLength? name t = some n) :
    name.length + 2 < n ∧ t[n - 1]? = some '>' := by
  simp only [closingTagLength?] at h
  split at h
  · rename_i hcond
    simp only [Bool.and_eq_true, beq_iff_eq, List.head?_drop] at hcond
    obtain rfl := Option.some.inj h
    refine ⟨?_, hcond.2⟩
    rw [List.length_cons, List.length_cons]
    omega
  · cases h

/-- So does the first closing tag that is found. -/
theorem getElem?_of_findClosingTag? {name t : Text} {i n : Nat}
    (h : findClosingTag? name t = some (i, n)) :
    name.length + 2 < n ∧ t[i + n - 1]? = some '>' := by
  induction t generalizing i n with
  | nil => cases h
  | cons c cs ih =>
    unfold findClosingTag? at h
    split at h
    · rename_i hlength
      cases h
      rw [Nat.zero_add]
      exact getElem?_of_closingTagLength? hlength
    · obtain ⟨⟨j, m⟩, hj, heq⟩ := Option.map_eq_some_iff.1 h
      cases heq
      obtain ⟨hlt, hget⟩ := ih hj
      refine ⟨hlt, ?_⟩
      rw [show j + 1 + n - 1 = j + n - 1 + 1 by omega, List.getElem?_cons_succ]
      exact hget

/-- The first closing tag, if it ends inside a text, does not depend on what follows the text. -/
theorem findClosingTag?_swap {name u t : Text} {i n : Nat}
    (h : findClosingTag? name (u ++ t) = some (i, n)) (hle : i + n ≤ u.length) (t' : Text) :
    findClosingTag? name (u ++ t') = some (i, n) := by
  induction u generalizing i n with
  | nil =>
    have hlt := (getElem?_of_findClosingTag? h).1
    rw [List.length_nil] at hle
    omega
  | cons c cs ih =>
    obtain ⟨hlt, hget⟩ := getElem?_of_findClosingTag? h
    have hmem : '>' ∈ (c :: cs).drop ('<' :: '/' :: name).length := by
      rw [List.getElem?_append_left (by omega)] at hget
      refine List.mem_of_getElem? (i := i + n - 1 - ('<' :: '/' :: name).length) ?_
      rw [List.getElem?_drop, Nat.add_sub_cancel' (by simp only [List.length_cons]; omega)]
      exact hget
    have hlength := (closingTagLength?_append t' hmem).trans (closingTagLength?_append t hmem).symm
    rw [List.cons_append] at hlength h ⊢
    rw [List.cons_append] at hlength
    unfold findClosingTag? at h ⊢
    rw [hlength]
    split at h
    · exact h
    · obtain ⟨⟨j, m⟩, hj, hjm⟩ := Option.map_eq_some_iff.1 h
      obtain ⟨rfl, rfl⟩ := Prod.mk.inj hjm
      rw [List.length_cons] at hle
      rw [ih hj (by omega)]
      rfl

/-- The raw text of an element. -/
theorem settled_rawText (h : G.Alike st st') (name : Text) (start start' : Nat)
    {as as' : List Node} (has : Node.AllLike S.move as as') :
    Settled S G.Follows (rawText name start as st) (rawText name start' as' st') := by
  refine ⟨forward_rawText name start as st, fun {c st₁ d} _ hok => ?_⟩
  unfold rawText at hok
  split at hok
  · cases hok
  · rename_i i n hn
    obtain ⟨rfl, hcursor⟩ := Prod.mk.inj (Except.ok.inj hok)
    obtain ⟨hle, rfl⟩ := Surround.advance_of_cursor (findClosingTag?_le hn) hcursor
    have hright : findClosingTag? name (S.right.cursor c).rest = some (i, n) :=
      findClosingTag?_swap hn hle _
    rw [S.right.cursor_advance hle]
    simp only [rawText, hright]
    refine ⟨_, rfl, (h.receive ?_).follows⟩
    exact Node.like_parts rfl has rfl rfl

theorem carried_tagName : Carried S '>' Likeness.same.rel tagName tagName := by
  refine ⟨forward_tagName, fun {c name d} _ hok hd => ?_⟩
  simp only [tagName] at hok
  split at hok
  · rename_i hname
    obtain ⟨rfl, hcursor⟩ := Prod.mk.inj (Except.ok.inj hok)
    obtain ⟨htake, hplace⟩ := takeWhile_right hcursor hd.rest_ne_nil
    refine ⟨_, ?_, rfl⟩
    simp only [tagName, htake, if_pos hname, hplace]
  · cases hok

/-- The end of a start tag. -/
theorem closed_tagEnd : Closed S '>' Likeness.same.rel tagEnd tagEnd := by
  have hplain {c : Cursor} (h : ¬ "/>".toList <+: c.rest) :
      tagEnd c = (expect ['>'] >>= fun _ => pure false : Reader Bool) c := by
    have heat : eat "/>".toList c = .ok (false, c) :=
      if_neg fun hp => h (List.isPrefixOf_iff_prefix.1 hp)
    exact bind_of_ok heat
  have hslash {c : Cursor} (h : "/>".toList <+: c.rest) :
      tagEnd c = .ok (true, c.advance 2) := by
    have heat : eat "/>".toList c = .ok (true, c.advance 2) :=
      if_pos (List.isPrefixOf_iff_prefix.2 h)
    exact bind_of_ok heat
  have hclosed : Closed S '>' Likeness.same.rel (expect ['>'] >>= fun _ => pure false)
      (expect ['>'] >>= fun _ => pure false : Reader Bool) :=
    closed_expect.bind fun _ _ _ => .pure rfl
  have hinside {c d : Cursor} {b : Bool} (hp : "/>".toList <+: (S.left.cursor c).rest)
      (hok : tagEnd (S.left.cursor c) = .ok (b, S.left.cursor d)) :
      "/>".toList <+: c.rest ∧ b = true ∧ d = c.advance 2 := by
    rw [hslash hp] at hok
    obtain ⟨rfl, hcursor⟩ := Prod.mk.inj (Except.ok.inj hok)
    obtain ⟨hle, rfl⟩ := Surround.advance_of_cursor hp.length_le hcursor
    exact ⟨List.prefix_of_prefix_length_le hp (List.prefix_append _ _) hle, rfl, rfl⟩
  refine ⟨⟨forward_tagEnd, fun {c b d} hc hok => ?_⟩, fun {c b d} hc hok => ?_⟩
  · by_cases hp : "/>".toList <+: (S.left.cursor c).rest
    · obtain ⟨hp, rfl, rfl⟩ := hinside hp hok
      have hadvance : S.right.cursor (c.advance 2) = (S.right.cursor c).advance 2 :=
        S.right.cursor_advance hp.length_le
      refine ⟨true, ?_, rfl⟩
      rw [hslash (hp.trans (List.prefix_append _ _)), hadvance]
    · rw [hplain hp] at hok
      obtain ⟨_, m, hexpect, -, -, -⟩ := exists_of_bind (forward_expect _)
        (fun _ => Forward.pure _) hok
      obtain ⟨r, hr⟩ := (prefix_of_expect hexpect).1
      have hp' : ¬ "/>".toList <+: (S.right.cursor c).rest := by
        rintro ⟨r', hr'⟩
        rw [Surround.cursor, ← hr] at hr'
        cases hr'
      rw [hplain hp']
      exact hclosed.move hc hok
  · by_cases hp : "/>".toList <+: (S.left.cursor c).rest
    · exact .inr ((hinside hp hok).1.subset (by decide))
    · rw [hplain hp] at hok
      exact hclosed.pending hc hok

/-- The kind of an element. -/
theorem elementKind_alike {name : Text} {start : Nat} {kind : ElementKind} (h : G.Alike st st')
    (hkind : elementKind name start st = .ok kind) (start' : Nat) :
    elementKind name start' st' = .ok kind := by
  unfold elementKind at hkind ⊢
  rw [h.inHead]
  split at hkind
  · exact hkind
  · split at hkind
    · cases hkind
    · rename_i hprefix
      rw [if_neg hprefix]
      exact hkind

/-- A start tag. -/
theorem closed_startTag (h : G.Alike st st') (start start' : Nat) (name : Text) :
    Closed S '>' G.Follows (startTag S.leftContext start name st)
      (startTag S.rightContext start' name st') := by
  have hbefore := h.closeBefore name start start'
  have hkind : Carried S '>' Likeness.same.rel
      (ofExcept (elementKind name start (st.closeBefore name start)))
      (ofExcept (elementKind name start' (st'.closeBefore name start'))) :=
    Settled.carried (settled_ofExcept fun kind hk => ⟨kind, elementKind_alike hbefore hk _, rfl⟩)
  refine hkind.closed fun
    | kind, _, rfl => (carried_attributes []).closed fun as as' has => closed_tagEnd.bind fun
      | _, _, rfl => settled_position.bind fun stop stop' _ => ?_
  refine Settled.ite (.pure ?_) (Settled.ite (settled_rawText hbefore name start start' has)
    (.pure ?_))
  · refine (hbefore.receive ?_).follows
    exact Node.like_parts rfl has rfl rfl
  · refine (hbefore.push ?_).follows
    exact Node.like_parts rfl has rfl rfl

theorem closed_closingTag (h : G.Alike st st') (start start' : Nat) (name : Text) :
    Closed S '>' G.Follows (closingTag start name st) (closingTag start' name st') := by
  refine carried_skipBlank.closed fun _ _ _ => closed_expect.bind fun _ _ _ =>
    settled_position.bind fun _ stop' _ => settled_ofExcept fun _ hclose => ?_
  obtain ⟨st₁', hclose', hst₁⟩ := h.closeElement hclose start' stop'
  exact ⟨st₁', hclose', hst₁.follows⟩

/-- **A tag looks no further than its last bracket.** -/
theorem closed_tag (h : G.Alike st st') (start start' : Nat) :
    Closed S '>' G.Follows (tag S.leftContext start st) (tag S.rightContext start' st') :=
  (carried_eat (by decide)).closed fun
    | _, _, rfl => (closed_comment h start start').ite <|
      (carried_eat (by decide)).closed fun
        | _, _, rfl => carried_tagName.closed fun
          | name, _, rfl =>
            (closed_closingTag h start start' name).ite (closed_startTag h start start' name)

/-! ## Blocks -/

theorem carried_eachIndex :
    Carried S '}' Likeness.same.rel (eachBlock.eachIndex S.leftContext)
      (eachBlock.eachIndex S.rightContext) := by
  refine (carried_eat (by decide)).bind fun
    | _, _, rfl => Carried.ite ?_ (.pure rfl)
  exact carried_skipBlank.bind fun _ _ _ => (carried_readPattern (by decide) rfl).bind fun
    | none, _, rfl => carried_fail _
    | some _, _, rfl =>
      Carried.ite (carried_skipBlank.bind fun _ _ _ => .pure rfl) (carried_fail _)

theorem carried_eachKey :
    Carried S '}' Likeness.any.rel (eachBlock.eachKey S.leftContext)
      (eachBlock.eachKey S.rightContext) := by
  refine (carried_eat (by decide)).bind fun
    | _, _, rfl => Carried.ite ?_ (.pure trivial)
  exact (carried_readExpressionAt (by decide) rfl).bind fun _ _ _ =>
    (carried_expect _).bind fun _ _ _ => carried_skipBlank.bind fun _ _ _ => .pure trivial

/-- The label of an each block. -/
theorem closed_eachBlock (start start' : Nat) :
    Closed S '}' (Likeness.label S.move).rel (eachBlock S.leftContext start)
      (eachBlock S.rightContext start') := by
  refine (carried_readExpressionAt (by decide) rfl).closed fun
    | _, _, rfl => (carried_eat (by decide)).closed fun
      | _, _, rfl => Closed.ite ?_ (closed_fail _)
  exact carried_requireBlank.closed fun _ _ _ => (carried_readPattern (by decide) rfl).closed fun
    | none, _, rfl => closed_fail _
    | some _, _, rfl => carried_skipBlank.closed fun _ _ _ => carried_eachIndex.closed fun _ _ _ =>
      carried_eachKey.closed fun _ _ _ => closed_expect.bind fun _ _ _ => .pure rfl

/-- The block of an await block with its first branch open. -/
theorem alike_opening (h : G.Alike st st') {l l' : Label} (hl : l.Like S.move l') (b : BranchKind)
    (start start' : Nat) :
    G.Follows (awaitBlock.opening st l b start) (awaitBlock.opening st' l' b start') := by
  refine ((h.push ?_).push (Node.like_leaf (by rfl))).follows
  simp only [Node.Like, Node.gist, Node.map, Node.mk.injEq]
  exact ⟨hl, rfl, rfl, rfl, rfl, rfl, rfl, rfl⟩

theorem closed_awaitBlock (h : G.Alike st st') (start start' : Nat) :
    Closed S '}' G.Follows (awaitBlock S.leftContext start st)
      (awaitBlock S.rightContext start' st') := by
  refine (carried_readExpressionAt (by decide) rfl).closed fun
    | _, _, rfl => settled_position.carried.closed fun _ _ _ => (carried_eat (by decide)).closed fun
      | _, _, rfl => Closed.ite ?_ ?_
  · exact (carried_readPattern (by decide) rfl).closed fun
      | _, _, rfl => closed_expect.bind fun _ _ _ => .pure (alike_opening h (by rfl) _ _ _)
  · refine (carried_eat (by decide)).closed fun
      | _, _, rfl => Closed.ite ?_ ?_
    · exact (carried_readPattern (by decide) rfl).closed fun
        | _, _, rfl => closed_expect.bind fun _ _ _ => .pure (alike_opening h (by rfl) _ _ _)
    · exact closed_expect.bind fun _ _ _ => .pure (alike_opening h (by rfl) _ _ _)

/-- A block whose opener has one expression. -/
theorem closed_guard (h : G.Alike st st') (kind : Kind) (start start' : Nat) :
    Closed S '}' G.Follows
      (do
        let expression ← readExpressionAt S.leftContext {}
        expect ['}']
        return st.push { label := { kind, start, expression := some expression } })
      (do
        let expression ← readExpressionAt S.rightContext {}
        expect ['}']
        return st'.push { label := { kind, start := start', expression := some expression } }) :=
  (carried_readExpressionAt (by decide) rfl).closed fun
    | _, _, rfl => closed_expect.bind fun _ _ _ => .pure (h.push (Node.like_leaf (by rfl))).follows

theorem closed_openBlock (h : G.Alike st st') (start start' : Nat) :
    Closed S '}' G.Follows (openBlock S.leftContext start st)
      (openBlock S.rightContext start' st') := by
  refine carried_word.closed fun
    | keyword, _, rfl => ?_
  cases block? keyword with
  | none => exact closed_fail _
  | some kind =>
    refine carried_requireBlank.closed fun _ _ _ => ?_
    cases kind with
    | awaitBlock => exact closed_awaitBlock h start start'
    | guarded b =>
      cases b with
      | eachBlock =>
        exact (closed_eachBlock start start').bind fun l l' hl =>
          .pure (h.push (Node.like_leaf hl)).follows
      | ifBlock => exact closed_guard h _ start start'
      | keyBlock => exact closed_guard h _ start start'
    | _ => exact closed_guard h _ start start'

theorem closed_elseBranch (h : G.Alike st st') (start start' : Nat) :
    Closed S '}' G.Follows (elseBranch S.leftContext start st)
      (elseBranch S.rightContext start' st') := by
  refine carried_skipBlank.closed fun _ _ _ => (carried_eat (by decide)).closed fun
    | _, _, rfl => Closed.ite ?_ ?_
  · refine carried_requireBlank.closed fun _ _ _ => Closed.guard (fun hif => ?_) fun _ => ?_
    · simp only [Bool.and_eq_true, beq_iff_eq] at hif ⊢
      obtain ⟨hkind, helse⟩ := h.current (by rw [hif.1]; nofun)
      rwa [hkind, helse]
    · exact (carried_readExpressionAt (by decide) rfl).closed fun
        | _, _, rfl => closed_expect.bind fun _ _ _ =>
          .pure ((h.push (Node.like_leaf (by rfl))).push (Node.like_leaf (by rfl))).follows
  · refine Closed.guard (fun hblock => ?_) fun _ => ?_
    · simp only [Bool.and_eq_true, Bool.or_eq_true, beq_iff_eq] at hblock ⊢
      obtain ⟨hkind, helse⟩ := h.current (by rcases hblock.1 with h | h <;> rw [h] <;> nofun)
      rwa [hkind, helse]
    · exact closed_expect.bind fun _ _ _ => .pure (h.push (Node.like_leaf (by rfl))).follows

theorem closed_awaitBranch (h : G.Alike st st') (hbranch : st.current.kind.isBranch = true)
    (start start' : Nat) (b : BranchKind) :
    Closed S '}' G.Follows (awaitBranch S.leftContext start b st)
      (awaitBranch S.rightContext start' b st') := by
  have hpop := h.pop (.inr hbranch) start start'
  refine (carried_readPattern (by decide) rfl).closed fun
    | pattern, _, rfl => closed_expect.bind fun _ _ _ => .pure ?_
  have hset (n : Node) :
      (if b = .thenBlock then { n with label := { n.label with thenPattern := pattern } }
        else { n with label := { n.label with catchPattern := pattern } })
      = { n with label := n.label.setPattern b pattern } := by
    unfold Label.setPattern
    split
    · rfl
    · rfl
  simp only [hset]
  refine (Ground.Alike.push (hpop.modifyCurrent (fun _ _ hn => ?_) fun _ _ hf => ?_)
    (Node.like_leaf (by rfl))).follows
  · exact hn.setPattern b pattern
  · exact G.setPattern b pattern hf

theorem closed_continueBlock (h : G.Alike st st') (start start' : Nat) :
    Closed S '}' G.Follows (continueBlock S.leftContext start st)
      (continueBlock S.rightContext start' st') := by
  have hclosed := h.closeOmitted start start'
  refine carried_word.closed fun
    | keyword, _, rfl => ?_
  refine (closed_elseBranch hclosed start start').ite (Closed.ite ?_ (Closed.ite ?_ ?_))
  · refine Closed.guard (fun hkind => ?_) fun hkind => ?_
    · rw [beq_iff_eq] at hkind ⊢
      rw [(hclosed.current (by rw [hkind]; nofun)).1, hkind]
    · rw [beq_iff_eq] at hkind
      exact closed_awaitBranch hclosed (by rw [hkind]; rfl) start start' _
  · refine Closed.guard (fun hkind => ?_) fun hkind => ?_
    · simp only [Bool.or_eq_true, beq_iff_eq] at hkind ⊢
      rwa [(hclosed.current (by rcases hkind with h | h <;> rw [h] <;> nofun)).1]
    · simp only [Bool.or_eq_true, beq_iff_eq] at hkind
      refine closed_awaitBranch hclosed ?_ start start' _
      rcases hkind with h | h <;> rw [h] <;> rfl
  · exact closed_failAt _ _

theorem closed_closeBlock (h : G.Alike st st') (start start' : Nat) :
    Closed S '}' G.Follows (closeBlock start st) (closeBlock start' st') := by
  refine carried_word.closed fun
    | keyword, _, rfl => ?_
  cases hkind : block? keyword with
  | none => exact closed_fail _
  | some kind =>
    have hblock : kind ≠ .fragment := by
      rcases block?_eq_some hkind with ⟨b, rfl⟩ | rfl <;> nofun
    exact carried_skipBlank.closed fun _ _ _ => closed_expect.bind fun _ _ _ =>
      settled_position.bind fun _ stop' _ => settled_ofExcept fun _ hclose =>
        h.closeBlock hblock hclose start' stop'

/-- Special tags. -/
theorem closed_finish (h : G.Alike st st') (start start' : Nat) (kind : Kind)
    {e e' : Option Expression} (he : e' = e.map S.move) :
    Closed S '}' G.Follows (specialTag.finish start st kind e)
      (specialTag.finish start' st' kind e') := by
  refine closed_expect.bind fun _ _ _ => settled_position.bind fun stop stop' _ =>
    .pure (h.receive (Node.like_leaf ?_)).follows
  exact Label.like_iff.2 ⟨rfl, rfl, he, rfl, rfl, rfl⟩

theorem closed_specialTag (h : G.Alike st st') (start start' : Nat) :
    Closed S '}' G.Follows (specialTag S.leftContext start st)
      (specialTag S.rightContext start' st') := by
  have hforward (e : Option Expression) : Forward (specialTag.finish start st .debugTag e) :=
    (forward_expect _).bind fun _ => forward_position.bind fun _ => Forward.pure _
  have hone (kind : Kind) : Closed S '}' G.Follows
      (requireBlank >>= fun _ => readExpressionAt S.leftContext {} >>= fun e =>
        specialTag.finish start st kind (some e))
      (requireBlank >>= fun _ => readExpressionAt S.rightContext {} >>= fun e =>
        specialTag.finish start' st' kind (some e)) :=
    carried_requireBlank.closed fun _ _ _ => (carried_readExpressionAt (by decide) rfl).closed fun
      | _, _, rfl => closed_finish h start start' kind rfl
  refine carried_word.closed fun
    | keyword, _, rfl => (hone .rawMustache).ite (Closed.ite ?_ ((hone .constTag).ite ?_))
  · refine (carried_delimited (by decide) rfl).closed_of (fun d => ?_) (fun d d' hd => ?_) ?_
    · exact (hforward _).ite ((forward_checked _ d).bind fun _ => hforward _)
    · rw [empty_of_twin hd]
      exact (closed_finish h start start' _ rfl).ite <|
        (settled_checked hd).carried.closed fun
          | _, _, rfl => closed_finish h start start' _ rfl
    · intro d c b e hc hok
      split at hok
      · exact (closed_finish h start start' _ rfl).pending hc hok
      · obtain ⟨_, m, -, hok, hcm, -⟩ := exists_of_bind (forward_checked _ d)
          (fun _ => hforward _) hok
        exact hcm.pending ((closed_finish h start start' _ rfl).pending (hcm.on hc) hok)
  · exact closed_fail _

theorem closed_interpolation (h : G.Alike st st') (start start' : Nat) :
    Closed S '}' G.Follows (interpolation S.leftContext start st)
      (interpolation S.rightContext start' st') :=
  (carried_readExpressionAt (by decide) rfl).closed fun
    | _, _, rfl => closed_expect.bind fun _ _ _ => settled_position.bind fun _ _ _ =>
      .pure (h.receive (Node.like_leaf (by rfl))).follows

/-- **What is in braces looks no further than its last brace.** -/
theorem closed_mustache (h : G.Alike st st') (start start' : Nat) :
    Closed S '}' G.Follows (mustache S.leftContext start st)
      (mustache S.rightContext start' st') :=
  carried_skipBlank.closed fun _ _ _ => (carried_eat (by decide)).closed fun
    | _, _, rfl => (closed_openBlock h start start').ite <| (carried_eat (by decide)).closed fun
      | _, _, rfl => (closed_continueBlock h start start').ite <|
        (carried_eat (by decide)).closed fun
          | _, _, rfl => (closed_closeBlock h start start').ite <|
            (carried_eat (by decide)).closed fun
              | _, _, rfl =>
                (closed_specialTag h start start').ite (closed_interpolation h start start')

/-- **An item that is no text is read in both texts in the same way.** -/
theorem settled_item (h : G.Alike st st') (start start' : Nat) {first : Char}
    (hfirst : first = '<' ∨ first = '{') :
    Settled S G.Follows (item S.leftContext start first st)
      (item S.rightContext start' first st') := by
  rcases hfirst with rfl | rfl
  · exact (closed_tag h start start').toSettled
  · exact (closed_mustache h start start').toSettled

end Reader

end ComponentDivision
