import MetricLayer.Proofs.Generation.Extract

/-!
# Fences and braces in a reply

The content of a fence and what stands between braces are pieces of the reply (`isInfix_of_mem_fences`,
`braced_isInfix`).  The other way round, a fence between texts without backticks is the only one, with the
content that was put into it (`fences_fenced`), and braces between texts without them are found
(`braced_between`).
-/

namespace MetricLayer.Reply

open MetricLayer.Text

variable {cs pre post body tag gap : List Char}

/-! ## Pieces of a reply -/

theorem eq_of_cutAt? {needle before after : List Char} (h : cutAt? needle cs = some (before, after)) :
    cs = before ++ (needle ++ after) := by
  induction cs generalizing before with
  | nil => cases h
  | cons c cs ih =>
    rw [cutAt?] at h
    split at h
    next rest hrest =>
      cases h
      exact (List.isPrefixOf?_eq_some_iff_append_eq.mp hrest).symm
    next =>
      obtain ⟨⟨before', after'⟩, hcut, heq⟩ := Option.map_eq_some_iff.mp h
      cases heq
      rw [List.cons_append, ← ih hcut]

theorem afterTag_isSuffix (cs : List Char) : afterTag cs <:+ cs := by
  rw [afterTag]
  cases hfound : ["json", "sql"].findSome? fun tag => letters? tag.toList cs with
  | none => exact List.suffix_refl cs
  | some rest =>
    obtain ⟨tag, -, htag⟩ := List.exists_of_findSome?_eq_some hfound
    exact isSuffix_of_letters? htag

/-- The content of a fence is a piece of the text. -/
theorem isInfix_of_mem_fences {content : List Char} (h : content ∈ fences cs) : content <:+: cs := by
  obtain ⟨⟨p, content⟩, hmem, rfl⟩ := List.mem_map.mp h
  obtain ⟨⟨pre, post, rfl, rfl⟩, after, hmatch⟩ := of_mem_scan hmem
  obtain ⟨rest, hrest, hcut⟩ := Option.bind_eq_some_iff.mp hmatch
  have hpost : fenceMark ++ rest = post := List.isPrefixOf?_eq_some_iff_append_eq.mp hrest
  have hcontent : content <+: (afterTag rest).dropWhile isBlank := by
    rw [eq_of_cutAt? hcut]
    exact List.prefix_append content _
  have hrest : (afterTag rest).dropWhile isBlank <:+ pre ++ post := by
    refine ((List.dropWhile_suffix _).trans (afterTag_isSuffix rest)).trans ?_
    rw [← hpost, ← List.append_assoc]
    exact List.suffix_append _ rest
  exact hcontent.isInfix.trans hrest.isInfix

theorem braced_isInfix (cs : List Char) : braced cs <:+: cs :=
  (dropEndWhile_isInfix _ _).trans (List.dropWhile_suffix _).isInfix

/-! ## A fence that is put around a text -/

/-- A text in a fence: the marks, the tag and the white space in front. -/
def fenced (tag gap body : List Char) : List Char :=
  fenceMark ++ (tag ++ (gap ++ (body ++ fenceMark)))

/-- The tag is read as one, or as none, before white space and a text. -/
def IsTag (tag gap body : List Char) : Prop :=
  ∀ more, afterTag (tag ++ (gap ++ (body ++ more))) = gap ++ (body ++ more)

theorem isTag_json (h : tag.map fold = "json".toList) (gap body : List Char) : IsTag tag gap body := by
  intro more
  have hjson : letters? "json".toList (tag ++ (gap ++ (body ++ more))) = some (gap ++ (body ++ more)) :=
    letters?_eq_some_iff.mpr ⟨tag, rfl, h⟩
  rw [afterTag, List.findSome?_cons, hjson]
  rfl

theorem letters?_eq_none_of_head {k c : Char} {ks : List Char} (h : fold c ≠ k) (cs : List Char) :
    letters? (k :: ks) (c :: cs) = none := by
  rw [letters?, if_neg h]

theorem isTag_sql (h : tag.map fold = "sql".toList) (gap body : List Char) : IsTag tag gap body := by
  intro more
  have hsql : letters? "sql".toList (tag ++ (gap ++ (body ++ more))) = some (gap ++ (body ++ more)) :=
    letters?_eq_some_iff.mpr ⟨tag, rfl, h⟩
  have hjson : letters? "json".toList (tag ++ (gap ++ (body ++ more))) = none := by
    cases tag with
    | nil => cases h
    | cons c tag =>
      have hc : fold c = 's' := (List.cons.inj h).1
      exact letters?_eq_none_of_head (by rw [hc]; decide) _
  rw [afterTag, List.findSome?_cons, hjson, List.findSome?_cons, hsql]
  rfl

/-- Without a tag, white space or a SELECT is no tag either. -/
theorem isTag_nil (hgap : ∀ c ∈ gap, isBlank c) (hbody : "SELECT".toList <+: body) : IsTag [] gap body := by
  intro more
  obtain ⟨rest, rfl⟩ := hbody
  have hnone : ∀ word ∈ ["json", "sql"],
      letters? word.toList ([] ++ (gap ++ ("SELECT".toList ++ rest ++ more))) = none := by
    intro word hword
    cases gap with
    | nil =>
      have hclash : ∀ word ∈ ["json", "sql"], clash word.toList "SELECT".toList = false := by decide
      rw [List.nil_append, List.nil_append, List.append_assoc]
      exact letters?_eq_none_of_clash (hclash word hword) _
    | cons c gap =>
      have hblank := hgap c List.mem_cons_self
      have hletters : ∀ word ∈ ["json", "sql"], ∃ k ks, word.toList = k :: ks ∧ isBlank k = false :=
        List.forall_mem_cons.mpr ⟨⟨'j', "son".toList, rfl, rfl⟩,
          List.forall_mem_singleton.mpr ⟨'s', "ql".toList, rfl, rfl⟩⟩
      obtain ⟨k, ks, hk, hkblank⟩ := hletters word hword
      rw [hk]
      refine letters?_eq_none_of_head (fun heq => ?_) _
      rw [← heq, fold_eq_of_isBlank hblank, hblank] at hkblank
      cases hkblank
  rw [afterTag, List.findSome?_eq_none_iff.mpr hnone]
  rfl

theorem cutAt?_fenceMark (h : '\x60' ∉ body) (post : List Char) :
    cutAt? fenceMark (body ++ (fenceMark ++ post)) = some (body, post) := by
  induction body with
  | nil =>
    have hprefix : fenceMark.isPrefixOf? ('\x60' :: ("\x60\x60".toList ++ post)) = some post :=
      List.isPrefixOf?_eq_some_iff_append_eq.mpr rfl
    show cutAt? fenceMark ('\x60' :: ("\x60\x60".toList ++ post)) = some ([], post)
    rw [cutAt?, hprefix]
  | cons c body ih =>
    obtain ⟨hc, hbody⟩ := not_or.mp (fun hmem => h (List.mem_cons.mpr hmem))
    have hprefix : fenceMark.isPrefixOf? (c :: (body ++ (fenceMark ++ post))) = none := by
      rw [Option.eq_none_iff_forall_ne_some]
      intro rest hrest
      have hhead := List.isPrefixOf?_eq_some_iff_append_eq.mp hrest
      exact hc (List.cons.inj hhead).1
    rw [List.cons_append, cutAt?, hprefix]
    simp only [ih hbody, Option.map_some]

theorem fence?_eq_none {c : Char} (h : c ≠ '\x60') (n : Nat) (b : Option Char) (more : List Char) :
    fence? ⟨n, b, c :: more⟩ = none := by
  have hprefix : fenceMark.isPrefixOf? (c :: more) = none := by
    rw [Option.eq_none_iff_forall_ne_some]
    intro rest hrest
    exact h (List.cons.inj (List.isPrefixOf?_eq_some_iff_append_eq.mp hrest)).1.symm
  rw [fence?, hprefix]
  rfl

/-- A fence between texts without backticks is the only one. -/
theorem fences_fenced (hpre : '\x60' ∉ pre) (hpost : '\x60' ∉ post) (htag : IsTag tag gap body)
    (hgap : ∀ c ∈ gap, isBlank c) (hbody : '\x60' ∉ body) (hhead : ∀ c ∈ body.head?, isBlank c = false) :
    fences (pre ++ (fenced tag gap body ++ post)) = [body] := by
  have hno {text : List Char} (h : '\x60' ∉ text) :
      ∀ c ∈ text, ∀ n b more, fence? ⟨n, b, c :: more⟩ = none :=
    fun c hc => fence?_eq_none fun heq => h (heq ▸ hc)
  have hdrop : (gap ++ (body ++ (fenceMark ++ post))).dropWhile isBlank = body ++ (fenceMark ++ post) := by
    rw [List.dropWhile_append_of_pos hgap]
    cases body with
    | nil => rfl
    | cons c body => exact List.dropWhile_cons_of_neg (by rw [hhead c rfl]; exact Bool.false_ne_true)
  have hmatch : fence? ⟨pre.length, pre.getLast?, fenced tag gap body ++ post⟩ = some (body, post) := by
    have hprefix : fenceMark.isPrefixOf? (fenced tag gap body ++ post) =
        some (tag ++ (gap ++ (body ++ (fenceMark ++ post)))) :=
      List.isPrefixOf?_eq_some_iff_append_eq.mpr (by simp only [fenced, List.append_assoc])
    rw [fence?, hprefix]
    show cutAt? fenceMark ((afterTag (tag ++ (gap ++ (body ++ (fenceMark ++ post))))).dropWhile isBlank) = _
    rw [htag, hdrop, cutAt?_fenceMark hbody]
  have hne : fenced tag gap body ≠ [] := List.cons_ne_nil _ _
  rw [fences, scan_between (hno hpre) (hno hpost) (fun _ _ => rfl) hne hmatch]
  rfl

/-! ## Braces -/

/-- What stands between the braces of a text that has no others around it. -/
theorem braced_between (hpre : '\x7b' ∉ pre) (hpost : '\x7d' ∉ post) (inner : List Char) :
    braced (pre ++ ('\x7b' :: (inner ++ '\x7d' :: post))) = '\x7b' :: (inner ++ ['\x7d']) := by
  have hdrop : (pre ++ ('\x7b' :: (inner ++ '\x7d' :: post))).dropWhile (· != '\x7b') =
      '\x7b' :: (inner ++ ['\x7d']) ++ post := by
    rw [List.dropWhile_append_of_pos (bne_of_not_mem hpre)]
    simp
  rw [braced, hdrop, dropEndWhile_append_of_all _ (bne_of_not_mem hpost)]
  apply dropEndWhile_eq_self
  rw [← List.cons_append, List.getLast?_concat]
  rintro c ⟨⟩
  rfl

end MetricLayer.Reply
