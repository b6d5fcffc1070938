import MizanConnect.Lib.PrefixCode
import MizanConnect.Types

/-!
# `MizanConnect.SerdeJson`: JSON values and their text

`serde_json::Value`, its maps and `serde_json::to_string`. The feature
`preserve_order` is off, so a map is a `BTreeMap`: its keys are distinct and
in order. A text is the list of its characters.
-/

set_option autoImplicit false

namespace MizanConnect

namespace Json

/-! ### Values -/

/-- The characters of a number. -/
def isNumberChar (c : Char) : Bool :=
  c.isDigit || c = '-' || c = '+' || c = '.' || c = 'e' || c = 'E'

/-- The literals are numbers, and the keys of every map are in order. -/
inductive WellFormed : Json → Prop where
  | null : WellFormed .null
  | bool (b : Bool) : WellFormed (.bool b)
  | num (literal : String) (hne : literal.toList ≠ [])
      (hchars : ∀ c ∈ literal.toList, isNumberChar c = true) : WellFormed (.num literal)
  | str (s : String) : WellFormed (.str s)
  | arr (items : List Json) (hitems : ∀ v ∈ items, WellFormed v) : WellFormed (.arr items)
  | obj (fields : List (String × Json)) (hsorted : fields.Pairwise fun f g => f.1 < g.1)
      (hfields : ∀ f ∈ fields, WellFormed f.2) : WellFormed (.obj fields)

/-- `Value::is_null`. -/
def isNull : Json → Bool
  | .null => true
  | _ => false

/-- `Map::insert`. -/
def insert (key : String) (value : Json) : List (String × Json) → List (String × Json)
  | [] => [(key, value)]
  | (k, v) :: fields =>
    if key < k then (key, value) :: (k, v) :: fields
    else if key = k then (key, value) :: fields
    else (k, v) :: insert key value fields

/-- `Map::insert` adds its own entry only. -/
theorem mem_insert {key : String} {value : Json} {fields : List (String × Json)}
    {f : String × Json} (hf : f ∈ insert key value fields) : f = (key, value) ∨ f ∈ fields := by
  induction fields with
  | nil => exact Or.inl (List.mem_singleton.mp hf)
  | cons field fields ih =>
    rw [insert] at hf
    split at hf
    · exact List.mem_cons.mp hf
    · split at hf
      · exact (List.mem_cons.mp hf).imp_right (List.mem_cons_of_mem _)
      · obtain rfl | hf := List.mem_cons.mp hf
        · exact Or.inr List.mem_cons_self
        · exact (ih hf).imp_right (List.mem_cons_of_mem _)

/-- The keys stay in order. -/
theorem sorted_insert (key : String) (value : Json) {fields : List (String × Json)}
    (hsorted : fields.Pairwise fun f g => f.1 < g.1) :
    (insert key value fields).Pairwise fun f g => f.1 < g.1 := by
  induction fields with
  | nil => exact List.pairwise_singleton _ _
  | cons field fields ih =>
    obtain ⟨hfirst, hrest⟩ := List.pairwise_cons.mp hsorted
    rw [insert]
    split
    · rename_i hlt
      refine List.pairwise_cons.mpr ⟨?_, hsorted⟩
      intro f hf
      obtain rfl | hf := List.mem_cons.mp hf
      · exact hlt
      · exact String.lt_trans hlt (hfirst f hf)
    · rename_i hnot
      split
      · rename_i heq
        subst heq
        exact List.pairwise_cons.mpr ⟨hfirst, hrest⟩
      · rename_i hne
        refine List.pairwise_cons.mpr ⟨?_, ih hrest⟩
        intro f hf
        obtain rfl | hf := mem_insert hf
        · by_contra hle
          exact hne (String.le_antisymm (String.not_lt.mp hle) (String.not_lt.mp hnot))
        · exact hfirst f hf

theorem WellFormed.insert {key : String} {value : Json} {fields : List (String × Json)}
    (hvalue : value.WellFormed) (hobj : (Json.obj fields).WellFormed) :
    (Json.obj (Json.insert key value fields)).WellFormed := by
  cases hobj with
  | obj _ hsorted hfields =>
    refine .obj _ (sorted_insert key value hsorted) ?_
    intro f hf
    obtain rfl | hf := mem_insert hf
    · exact hvalue
    · exact hfields f hf

theorem WellFormed.empty : (Json.obj []).WellFormed :=
  .obj [] .nil (fun _ h => absurd h List.not_mem_nil)

/-! ### Text -/

/-- A lowercase hexadecimal digit. -/
def hexDigit (n : Nat) : Char := if n < 10 then Char.ofNat (48 + n) else Char.ofNat (87 + n)

/-- A character of a string, after the table `ESCAPE`. -/
def escapeChar (c : Char) : List Char :=
  if c = '"' then ['\\', '"']
  else if c = '\\' then ['\\', '\\']
  else if c = '\x08' then ['\\', 'b']
  else if c = '\x0c' then ['\\', 'f']
  else if c = '\n' then ['\\', 'n']
  else if c = '\r' then ['\\', 'r']
  else if c = '\t' then ['\\', 't']
  else if c.toNat < 0x20 then
    ['\\', 'u', '0', '0', hexDigit (c.toNat / 16), hexDigit (c.toNat % 16)]
  else [c]

/-- A string in its quotes. -/
def renderString (s : String) : List Char := '"' :: (s.toList.flatMap escapeChar ++ ['"'])

mutual

/-- `serde_json::to_string`. -/
def render : Json → List Char
  | .null => ['n', 'u', 'l', 'l']
  | .bool true => ['t', 'r', 'u', 'e']
  | .bool false => ['f', 'a', 'l', 's', 'e']
  | .num literal => literal.toList
  | .str s => renderString s
  | .arr items => '[' :: PrefixCode.body ',' ']' (renderItems items)
  | .obj fields => '{' :: PrefixCode.body ',' '}' (renderFields fields)

/-- The texts of the elements of a list. -/
def renderItems : List Json → List (List Char)
  | [] => []
  | v :: items => render v :: renderItems items

/-- The texts of the entries of a map. -/
def renderFields : List (String × Json) → List (List Char)
  | [] => []
  | (key, v) :: fields => (renderString key ++ ':' :: render v) :: renderFields fields

end

/-- The text of an entry. -/
def renderField (field : String × Json) : List Char :=
  renderString field.1 ++ ':' :: render field.2

theorem renderItems_eq_map (items : List Json) : renderItems items = items.map render := by
  induction items with
  | nil => rfl
  | cons v items ih => rw [renderItems, ih, List.map_cons]

theorem renderFields_eq_map (fields : List (String × Json)) :
    renderFields fields = fields.map renderField := by
  induction fields with
  | nil => rfl
  | cons field fields ih => rw [renderFields, ih, List.map_cons, renderField]

/-! ### One text, one value -/

/-- The characters that are escaped. -/
def escaped : List Char := '"' :: '\\' :: (List.range 0x20).map Char.ofNat

/-- Every other character stands for itself. -/
theorem escapeChar_of_not_mem {c : Char} (hc : c ∉ escaped) : escapeChar c = [c] := by
  have hne : ∀ d ∈ escaped, c ≠ d := by
    rintro d hd rfl
    exact hc hd
  have hcode : ¬ c.toNat < 0x20 := by
    intro hlt
    have hmem : Char.ofNat c.toNat ∈ (List.range 0x20).map Char.ofNat :=
      List.mem_map_of_mem (List.mem_range.mpr hlt)
    rw [Char.ofNat_toNat] at hmem
    exact hc (List.mem_cons_of_mem _ (List.mem_cons_of_mem _ hmem))
  rw [escapeChar, if_neg (hne '"' (by decide)), if_neg (hne '\\' (by decide)),
    if_neg (hne '\x08' (by decide)), if_neg (hne '\x0c' (by decide)),
    if_neg (hne '\n' (by decide)), if_neg (hne '\r' (by decide)), if_neg (hne '\t' (by decide)),
    if_neg hcode]

/-- An escape starts with a backslash. -/
theorem escapeChar_of_mem {c : Char} (hc : c ∈ escaped) :
    ∃ rest, escapeChar c = '\\' :: rest := by
  have hall : (escaped.all fun c => (escapeChar c).head? = some '\\') = true := by decide
  exact List.head?_eq_some_iff.mp (of_decide_eq_true (List.all_eq_true.mp hall c hc))

theorem escapeChar_prefixFree : PrefixCode.PrefixFree escapeChar := by
  -- the escapes are finitely many
  have hall : (escaped.all fun a => escaped.all fun b =>
      escapeChar a <+: escapeChar b → a = b) = true := by decide +kernel
  have hbackslash : '\\' ∈ escaped := by decide
  rintro a b hprefix
  by_cases ha : a ∈ escaped
  · by_cases hb : b ∈ escaped
    · have hpair := List.all_eq_true.mp (List.all_eq_true.mp hall a ha) b hb
      exact of_decide_eq_true hpair hprefix
    · obtain ⟨rest, hrest⟩ := escapeChar_of_mem ha
      rw [hrest, escapeChar_of_not_mem hb] at hprefix
      obtain ⟨t, ht⟩ := hprefix
      have hhead : '\\' = b := List.head_eq_of_cons_eq ht
      exact absurd (hhead ▸ hbackslash) hb
  · rw [escapeChar_of_not_mem ha] at hprefix
    by_cases hb : b ∈ escaped
    · obtain ⟨rest, hrest⟩ := escapeChar_of_mem hb
      rw [hrest] at hprefix
      obtain ⟨t, ht⟩ := hprefix
      cases ht
      exact absurd hbackslash ha
    · rw [escapeChar_of_not_mem hb] at hprefix
      obtain ⟨t, ht⟩ := hprefix
      cases ht
      rfl

/-- No escaped character looks like the closing quote. -/
theorem escapeChar_avoids (c : Char) : PrefixCode.Avoids '"' (escapeChar c) := by
  by_cases hc : c ∈ escaped
  · obtain ⟨rest, hrest⟩ := escapeChar_of_mem hc
    exact ⟨'\\', rest, hrest, by decide⟩
  · refine ⟨c, [], escapeChar_of_not_mem hc, ?_⟩
    rintro rfl
    exact hc (by decide)

/-- A string ends at its closing quote. -/
theorem renderString_append {s t : String} {r r' : List Char}
    (h : renderString s ++ r = renderString t ++ r') : s = t ∧ r = r' := by
  simp only [renderString, List.cons_append, List.append_assoc, List.nil_append] at h
  obtain ⟨hchars, hr⟩ :=
    escapeChar_prefixFree.flatMap_append escapeChar_avoids (List.tail_eq_of_cons_eq h)
  exact ⟨String.toList_inj.mp hchars, hr⟩

/-- What a text can start with. -/
inductive Lead where
  | null
  | true
  | false
  | number
  | quote
  | bracket
  | brace

def leadOf (c : Char) : Lead :=
  if c = 'n' then .null
  else if c = 't' then .true
  else if c = 'f' then .false
  else if c = '"' then .quote
  else if c = '[' then .bracket
  else if c = '{' then .brace
  else .number

def lead : Json → Lead
  | .null => .null
  | .bool true => .true
  | .bool false => .false
  | .num _ => .number
  | .str _ => .quote
  | .arr _ => .bracket
  | .obj _ => .brace

/-- The first character of a text says what it is the text of. -/
theorem render_lead {v : Json} (hv : v.WellFormed) :
    ∃ c rest, v.render = c :: rest ∧ leadOf c = v.lead ∧ c ≠ ']' := by
  cases hv with
  | null => exact ⟨_, _, rfl, rfl, by decide⟩
  | bool b =>
    cases b with
    | true => exact ⟨_, _, rfl, rfl, by decide⟩
    | false => exact ⟨_, _, rfl, rfl, by decide⟩
  | num literal hne hchars =>
    cases hliteral : literal.toList with
    | nil => exact absurd hliteral hne
    | cons c rest =>
      have hc : isNumberChar c = true := hchars c (by simp [hliteral])
      have hother : ∀ d, isNumberChar d = false → c ≠ d := by
        rintro d hd rfl
        rw [hc] at hd
        cases hd
      refine ⟨c, rest, hliteral, ?_, hother ']' (by decide)⟩
      rw [leadOf, if_neg (hother 'n' (by decide)), if_neg (hother 't' (by decide)),
        if_neg (hother 'f' (by decide)), if_neg (hother '"' (by decide)),
        if_neg (hother '[' (by decide)), if_neg (hother '{' (by decide))]
      rfl
  | str s => exact ⟨_, _, rfl, rfl, by decide⟩
  | arr items hitems => exact ⟨_, _, by rw [render], rfl, by decide⟩
  | obj fields hsorted hfields => exact ⟨_, _, by rw [render], rfl, by decide⟩

theorem lead_eq {v w : Json} (hv : v.WellFormed) (hw : w.WellFormed) {r r' : List Char}
    (h : v.render ++ r = w.render ++ r') : v.lead = w.lead := by
  obtain ⟨c, rest, hrender, hlead, -⟩ := render_lead hv
  obtain ⟨c', rest', hrender', hlead', -⟩ := render_lead hw
  rw [hrender, hrender'] at h
  have hhead : c = c' := List.head_eq_of_cons_eq h
  rw [← hlead, ← hlead', hhead]

/-- What follows is not part of a number. -/
def Ends (r : List Char) : Prop := ∀ c rest, r = c :: rest → isNumberChar c = false

theorem ends_cons {c : Char} (hc : isNumberChar c = false) (r : List Char) : Ends (c :: r) := by
  rintro d rest heq
  cases heq
  exact hc

/-- A number ends where its characters do. -/
theorem number_append {cs ds r r' : List Char} (hcs : ∀ c ∈ cs, isNumberChar c = true)
    (hds : ∀ c ∈ ds, isNumberChar c = true) (hr : Ends r) (hr' : Ends r')
    (h : cs ++ r = ds ++ r') : cs = ds ∧ r = r' := by
  have hnone : ∀ r, Ends r → r.takeWhile isNumberChar = [] := by
    intro r hr
    cases r with
    | nil => rfl
    | cons c rest => exact List.takeWhile_cons_of_neg (by simp [hr c rest rfl])
  have hwhile := congrArg (List.takeWhile isNumberChar) h
  rw [List.takeWhile_append_of_pos hcs, List.takeWhile_append_of_pos hds, hnone r hr,
    hnone r' hr', List.append_nil, List.append_nil] at hwhile
  subst hwhile
  exact ⟨rfl, List.append_cancel_left h⟩

/-- A field is read when its value is. -/
theorem renderField_readable {field : String × Json}
    (h : PrefixCode.Readable render WellFormed Ends field.2) :
    PrefixCode.Readable renderField (fun f => f.2.WellFormed) Ends field := by
  rintro ⟨key', v'⟩ hv' r r' hr hr' heq
  obtain ⟨key, v⟩ := field
  simp only [renderField, List.append_assoc, List.cons_append] at heq
  obtain ⟨rfl, hrest⟩ := renderString_append heq
  obtain ⟨rfl, hrr⟩ := h v' hv' r r' hr hr' (List.tail_eq_of_cons_eq hrest)
  exact ⟨rfl, hrr⟩

/-- The text of a value is read as that of no other value. -/
theorem render_readable {v : Json} (hv : v.WellFormed) :
    PrefixCode.Readable render WellFormed Ends v := by
  have hcomma : ∀ r, Ends (',' :: r) := ends_cons (by decide)
  induction hv with
  | null =>
    intro w hw r r' _ _ h
    have hlead := lead_eq .null hw h
    obtain rfl : w = .null := by
      cases w <;> first | rfl | cases hlead | (rename_i b; cases b <;> cases hlead)
    exact ⟨rfl, List.append_cancel_left h⟩
  | bool b =>
    intro w hw r r' _ _ h
    have hlead := lead_eq (.bool b) hw h
    obtain rfl : w = .bool b := by
      cases b <;> cases w <;>
        first | cases hlead | (rename_i b; cases b <;> first | rfl | cases hlead)
    exact ⟨rfl, List.append_cancel_left h⟩
  | num literal hne hchars =>
    intro w hw r r' hr hr' h
    have hlead := lead_eq (.num literal hne hchars) hw h
    cases hw with
    | num literal' hne' hchars' =>
      obtain ⟨heq, hrr⟩ := number_append hchars hchars' hr hr' h
      exact ⟨congrArg Json.num (String.toList_inj.mp heq), hrr⟩
    | bool b => cases b <;> cases hlead
    | _ => cases hlead
  | str s =>
    intro w hw r r' _ _ h
    have hlead := lead_eq (.str s) hw h
    cases hw with
    | str t =>
      obtain ⟨rfl, hrr⟩ := renderString_append h
      exact ⟨rfl, hrr⟩
    | bool b => cases b <;> cases hlead
    | _ => cases hlead
  | arr items hitems ih =>
    intro w hw r r' _ _ h
    have hlead := lead_eq (.arr items hitems) hw h
    cases hw with
    | arr items' hitems' =>
      rw [render, render, renderItems_eq_map, renderItems_eq_map] at h
      have hstart : ∀ v : Json, v.WellFormed → PrefixCode.Avoids ']' v.render := by
        intro v hv
        obtain ⟨c, rest, hrender, -, hc⟩ := render_lead hv
        exact ⟨c, rest, hrender, hc⟩
      obtain ⟨rfl, hrr⟩ := PrefixCode.body_append hcomma (ends_cons (by decide)) (by decide) ih
        hitems' (fun v hv => hstart v (hitems v hv)) (fun v hv => hstart v (hitems' v hv))
        (List.tail_eq_of_cons_eq h)
      exact ⟨rfl, hrr⟩
    | bool b => cases b <;> cases hlead
    | _ => cases hlead
  | obj fields hsorted hfields ih =>
    intro w hw r r' _ _ h
    have hlead := lead_eq (.obj fields hsorted hfields) hw h
    cases hw with
    | obj fields' hsorted' hfields' =>
      rw [render, render, renderFields_eq_map, renderFields_eq_map] at h
      have hstart : ∀ field, PrefixCode.Avoids '}' (renderField field) :=
        fun field => ⟨'"', _, rfl, by decide⟩
      obtain ⟨rfl, hrr⟩ := PrefixCode.body_append hcomma (ends_cons (by decide)) (by decide)
        (fun field hfield => renderField_readable (ih field hfield)) hfields'
        (fun field _ => hstart field) (fun field _ => hstart field) (List.tail_eq_of_cons_eq h)
      exact ⟨rfl, hrr⟩
    | bool b => cases b <;> cases hlead
    | _ => cases hlead

/-- Two values with the same text are the same. -/
theorem render_injective {v w : Json} (hv : v.WellFormed) (hw : w.WellFormed)
    (h : v.render = w.render) : v = w := by
  have hnil : Ends [] := by
    rintro c rest heq
    cases heq
  exact (render_readable hv w hw [] [] hnil hnil (by rw [h])).1

end Json

/-- `serde_json::Value`. -/
abbrev Value := { v : Json // v.WellFormed }

end MizanConnect
