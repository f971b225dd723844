import Scaffold.Settings
/-!
Settings from layers, told without merging. The last layer that mentions a key decides on it, and
its value is checked only then: settings can be read if all these values are of their types, and
else the first key that has a bad one is the error. What else the layers hold does not matter.
-/
namespace Scaffold

/-! Members by their keys -/

namespace Json

theorem lookup_cons (name key : String) (value : Json) (ms : List (String × Json)) :
    ((name, value) :: ms).lookup key = if key = name then some value else ms.lookup key := by
  by_cases hkey : key = name
  · simp [hkey]
  · have hne : (key == name) = false := beq_eq_false_iff_ne.mpr hkey
    rw [List.lookup_cons, hne, if_neg hkey]

theorem lookup_setMember (name key : String) (value : Json) (ms : List (String × Json)) :
    (setMember name value ms).lookup key = if key = name then some value else ms.lookup key := by
  induction ms with
  | nil => exact lookup_cons name key value []
  | cons m ms ih =>
      obtain ⟨n, v⟩ := m
      unfold setMember
      by_cases hn : n = name
      · rw [if_pos hn, lookup_cons, lookup_cons, hn]
        by_cases hkey : key = name
        · rw [if_pos hkey, if_pos hkey]
        · rw [if_neg hkey, if_neg hkey, if_neg hkey]
      · rw [if_neg hn, lookup_cons, lookup_cons, ih]
        by_cases hkey : key = n
        · have hname : key ≠ name := hkey ▸ hn
          rw [if_pos hkey, if_neg hname, if_pos hkey]
        · rw [if_neg hkey, if_neg hkey]

theorem lookup_of_mem {ms : List (String × Json)} (hms : (ms.map Prod.fst).Nodup)
    {key : String} {value : Json} (h : (key, value) ∈ ms) : ms.lookup key = some value := by
  induction ms with
  | nil => exact absurd h List.not_mem_nil
  | cons m ms ih =>
      obtain ⟨n, v⟩ := m
      obtain ⟨hfresh, hrest⟩ := List.nodup_cons.mp hms
      rw [lookup_cons]
      rcases List.mem_cons.mp h with heq | hmem
      · obtain ⟨rfl, rfl⟩ := Prod.mk.inj heq
        rw [if_pos rfl]
      · have hne : key ≠ n := by
          rintro rfl
          exact hfresh (List.mem_map.mpr ⟨(key, value), hmem, rfl⟩)
        rw [if_neg hne, ih hrest hmem]

end Json

namespace Settings

def valueIn? (key : String) (layer : Json) : Option Json :=
  (optionsOf layer).findSomeRev? fun m => if m.1 = key then some m.2 else none

def lastValue? (key : String) (layers : List Json) : Option Json :=
  layers.findSomeRev? (valueIn? key)

theorem findSomeRev?_cons {α β : Type} (f : α → Option β) (a : α) (as : List α) :
    (a :: as).findSomeRev? f = (as.findSomeRev? f).or (f a) := by
  simp

theorem lookup_foldl_setMember (key : String) (ms acc : List (String × Json)) :
    (ms.foldl (fun acc (k, v) => Json.setMember k v acc) acc).lookup key =
      (ms.findSomeRev? fun m => if m.1 = key then some m.2 else none).or (acc.lookup key) := by
  induction ms generalizing acc with
  | nil => rfl
  | cons m ms ih =>
      obtain ⟨k, v⟩ := m
      rw [List.foldl_cons, ih, Json.lookup_setMember, findSomeRev?_cons, Option.or_assoc]
      by_cases hk : key = k
      · rw [if_pos hk, if_pos hk.symm, Option.some_or]
      · rw [if_neg hk, if_neg (Ne.symm hk), Option.none_or]

theorem lookup_merged (key : String) (layers : List Json) :
    (merged layers).lookup key = (lastValue? key layers).or ((toMembers {}).lookup key) := by
  unfold merged lastValue?
  generalize toMembers {} = acc
  induction layers generalizing acc with
  | nil => rfl
  | cons layer layers ih =>
      rw [List.foldl_cons, ih, lookup_foldl_setMember, findSomeRev?_cons, Option.or_assoc]
      rfl

theorem keys_nodup : (Setting.all.map Setting.key).Nodup := by
  decide

theorem keys_toMembers (s : Settings) : (s.toMembers.map Prod.fst).Nodup :=
  keys_nodup

theorem lookup_toMembers (s : Settings) {o : Setting} (ho : o ∈ Setting.all) :
    s.toMembers.lookup o.key = some (o.write s) :=
  Json.lookup_of_mem s.keys_toMembers (List.mem_map.mpr ⟨o, ho, rfl⟩)

def effective (layers : List Json) (o : Setting) : Json :=
  (lastValue? o.key layers).getD (o.write {})

def readAll (value : Setting → Json) (os : List Setting) (s : Settings) :
    Except SettingError Settings :=
  os.foldlM (fun s o => o.read (value o) s) s

theorem foldlM_congr {f g : Settings → Setting → Except SettingError Settings} {os : List Setting}
    (h : ∀ o ∈ os, ∀ s, f s o = g s o) (s : Settings) : os.foldlM f s = os.foldlM g s := by
  induction os generalizing s with
  | nil => rfl
  | cons o os ih =>
      rw [List.foldlM_cons, List.foldlM_cons, h o List.mem_cons_self]
      exact congrArg (bind (g s o)) (funext fun s' => ih (fun p hp => h p (.tail o hp)) s')

theorem ofLayers_eq_readAll (layers : List Json) :
    ofLayers layers = readAll (effective layers) Setting.all {} := by
  refine foldlM_congr (fun o ho s => ?_) {}
  have hlookup : (merged layers).lookup o.key = some (effective layers o) := by
    rw [lookup_merged, lookup_toMembers {} ho, effective]
    cases lastValue? o.key layers <;> rfl
  rw [hlookup]

theorem ofLayers_congr {layers layers' : List Json}
    (h : ∀ o ∈ Setting.all, lastValue? o.key layers = lastValue? o.key layers') :
    ofLayers layers = ofLayers layers' := by
  rw [ofLayers_eq_readAll, ofLayers_eq_readAll]
  refine foldlM_congr (fun o ho s => ?_) {}
  rw [effective, effective, h o ho]

/-! Values and their types -/

def IsFlag (j : Json) : Prop :=
  ∃ b, j = .bool b

def IsCount (j : Json) : Prop :=
  ∃ n : UInt64, j = .ofUInt64 n

instance (j : Json) : Decidable (IsFlag j) :=
  decidable_of_iff (j.bool?.isSome = true) (by cases j <;> simp [IsFlag, Json.bool?])

theorem integer_eq_ofUInt64 {n : Json.Integer} (h : 0 ≤ n.value) :
    n = .ofUInt64 (.ofNat n.value.toNat) := by
  have hsize : n.value.toNat < UInt64.size := (Int.toNat_lt h).mpr n.sized.2
  obtain ⟨value, hsized⟩ := n
  simp only [Json.Integer.ofUInt64, UInt64.toNat_ofNat_of_lt' hsize, Int.toNat_of_nonneg h]

theorem ofUInt64_injective {m n : UInt64} (h : Json.ofUInt64 m = .ofUInt64 n) : m = n := by
  simp only [Json.ofUInt64, Json.Integer.ofUInt64, Json.number.injEq, Json.Number.integer.injEq,
    Json.Integer.mk.injEq, Int.natCast_inj] at h
  exact UInt64.toNat_inj.mp h

def countKeys : List String :=
  ["phpdoc-empty-lines-after-description", "phpdoc-empty-lines-before-return",
    "phpdoc-empty-lines-before-throws", "constructor-args-one-line-max-length"]

def Suits (key : String) (j : Json) : Prop :=
  if key ∈ countKeys then IsCount j else IsFlag j

def countComplaint : Json → SettingError
  | .number (.integer n) => .negative n.value
  | j => .wrongType j "usize"

def complaint (key : String) (j : Json) : SettingError :=
  if key ∈ countKeys then countComplaint j else .wrongType j "a boolean"

theorem readFlag_cases (j : Json) :
    (∃ b, j = .bool b ∧ Setting.readFlag j = .ok b) ∨
      (¬IsFlag j ∧ Setting.readFlag j = .error (.wrongType j "a boolean")) := by
  unfold Setting.readFlag
  split
  · next b => exact .inl ⟨b, rfl, rfl⟩
  · next hflag =>
      refine .inr ⟨?_, rfl⟩
      rintro ⟨b, rfl⟩
      exact hflag b rfl

theorem readCount_cases (j : Json) :
    (∃ n, j = .ofUInt64 n ∧ Setting.readCount j = .ok n) ∨
      (¬IsCount j ∧ Setting.readCount j = .error (countComplaint j)) := by
  unfold Setting.readCount
  split
  · next n =>
      by_cases hn : n.value < 0
      · rw [if_pos hn]
        refine .inr ⟨?_, rfl⟩
        rintro ⟨m, hm⟩
        cases hm
        exact absurd hn (Int.not_lt.mpr (Int.natCast_nonneg _))
      · rw [if_neg hn]
        exact .inl ⟨_, congrArg _ (congrArg _ (integer_eq_ofUInt64 (Int.not_lt.mp hn))), rfl⟩
  · next hnumber =>
      have hcomplaint : countComplaint j = .wrongType j "usize" := by
        unfold countComplaint
        split
        · next n => exact absurd rfl (hnumber n)
        · rfl
      refine .inr ⟨?_, by rw [hcomplaint]⟩
      rintro ⟨n, rfl⟩
      exact hnumber _ rfl

instance (j : Json) : Decidable (IsCount j) :=
  decidable_of_iff (Setting.readCount j).toOption.isSome (by
    rcases readCount_cases j with ⟨n, hj, hread⟩ | ⟨hcount, hread⟩
    · exact iff_of_true (by simp [hread, Except.toOption]) ⟨n, hj⟩
    · exact iff_of_false (by simp [hread, Except.toOption]) hcount)

instance (key : String) (j : Json) : Decidable (Suits key j) :=
  inferInstanceAs (Decidable (if key ∈ countKeys then IsCount j else IsFlag j))

def Accepts (o : Setting) (j : Json) : Prop :=
  ∀ s, ∃ s', o.read j s = .ok s' ∧ s'.toMembers = Json.setMember o.key j s.toMembers

/-- Whether an option takes any value that suits it, and complains of all others. -/
def Reads (o : Setting) : Prop :=
  ∀ j,
    (Suits o.key j ∧ Accepts o j) ∨ (¬Suits o.key j ∧ ∀ s, o.read j s = .error (complaint o.key j))

section

variable {key : String}

theorem reads_flag {get : Settings → Bool} {set : Bool → Settings → Settings}
    (hkey : key ∉ countKeys)
    (hset : ∀ b s, (set b s).toMembers = Json.setMember key (.bool b) s.toMembers) :
    Reads (Setting.flag key get set) := by
  intro j
  have hsuits : Suits key j = IsFlag j := if_neg hkey
  have hcomplaint : complaint key j = .wrongType j "a boolean" := if_neg hkey
  change (Suits key j ∧ _) ∨
    (¬Suits key j ∧ ∀ s, (Setting.readFlag j).map (set · s) = .error (complaint key j))
  rw [hsuits, hcomplaint]
  rcases readFlag_cases j with ⟨b, rfl, -⟩ | ⟨hflag, hread⟩
  · exact .inl ⟨⟨b, rfl⟩, fun s => ⟨set b s, rfl, hset b s⟩⟩
  · rw [hread]
    exact .inr ⟨hflag, fun _ => rfl⟩

theorem reads_count {get : Settings → UInt64} {set : UInt64 → Settings → Settings}
    (hkey : key ∈ countKeys)
    (hset : ∀ n s, (set n s).toMembers = Json.setMember key (.ofUInt64 n) s.toMembers) :
    Reads (Setting.count key get set) := by
  intro j
  have hsuits : Suits key j = IsCount j := if_pos hkey
  have hcomplaint : complaint key j = countComplaint j := if_pos hkey
  change (Suits key j ∧ _) ∨
    (¬Suits key j ∧ ∀ s, (Setting.readCount j).map (set · s) = .error (complaint key j))
  rw [hsuits, hcomplaint]
  rcases readCount_cases j with ⟨n, rfl, hread⟩ | ⟨hcount, hread⟩
  · exact .inl ⟨⟨n, rfl⟩, fun s => ⟨set n s, congrArg (·.map (set · s)) hread, hset n s⟩⟩
  · rw [hread]
    exact .inr ⟨hcount, fun _ => rfl⟩

end

theorem reads_all : ∀ o ∈ Setting.all, Reads o := by
  simp only [Setting.all, List.forall_mem_cons]
  refine ⟨reads_flag (by decide) ?_, reads_flag (by decide) ?_, reads_flag (by decide) ?_,
    reads_count (by decide) ?_, reads_count (by decide) ?_, reads_count (by decide) ?_,
    reads_flag (by decide) ?_, reads_flag (by decide) ?_, reads_flag (by decide) ?_,
    reads_flag (by decide) ?_, reads_flag (by decide) ?_, reads_flag (by decide) ?_,
    reads_count (by decide) ?_, by simp⟩
  all_goals exact fun _ _ => rfl

theorem suits_write (c : Settings) : ∀ o ∈ Setting.all, Suits o.key (o.write c) := by
  have hflag {key : String} (hkey : key ∉ countKeys) (b : Bool) : Suits key (.bool b) := by
    rw [Suits, if_neg hkey]
    exact ⟨b, rfl⟩
  have hcount {key : String} (hkey : key ∈ countKeys) (n : UInt64) : Suits key (.ofUInt64 n) := by
    rw [Suits, if_pos hkey]
    exact ⟨n, rfl⟩
  simp only [Setting.all, List.forall_mem_cons]
  exact ⟨hflag (by decide) _, hflag (by decide) _, hflag (by decide) _, hcount (by decide) _,
    hcount (by decide) _, hcount (by decide) _, hflag (by decide) _, hflag (by decide) _,
    hflag (by decide) _, hflag (by decide) _, hflag (by decide) _, hflag (by decide) _,
    hcount (by decide) _, by simp⟩

theorem accepts_write (c : Settings) : ∀ o ∈ Setting.all, Accepts o (o.write c) := by
  intro o ho
  rcases reads_all o ho (o.write c) with ⟨-, haccepts⟩ | ⟨hbad, -⟩
  · exact haccepts
  · exact absurd (suits_write c o ho) hbad

theorem eq_of_write {s c : Settings} (h : ∀ o ∈ Setting.all, o.write s = o.write c) : s = c := by
  have hcount {m n : UInt64} : Json.ofUInt64 m = .ofUInt64 n ↔ m = n :=
    ⟨ofUInt64_injective, congrArg _⟩
  simp only [Setting.all, List.forall_mem_cons, Setting.flag, Setting.count, Json.bool.injEq,
    hcount] at h
  cases s
  cases c
  simpa using h

/-! Reading one option after another -/

section

variable {value : Setting → Json} {os : List Setting}

theorem readAll_of_accepts (hnodup : (os.map Setting.key).Nodup)
    (haccepts : ∀ o ∈ os, Accepts o (value o)) (s : Settings) :
    ∃ s', readAll value os s = .ok s' ∧
      (∀ o ∈ os, s'.toMembers.lookup o.key = some (value o)) ∧
      ∀ key ∉ os.map Setting.key, s'.toMembers.lookup key = s.toMembers.lookup key := by
  induction os generalizing s with
  | nil => exact ⟨s, rfl, by simp, fun _ _ => rfl⟩
  | cons o os ih =>
      obtain ⟨hfresh, hrest⟩ := List.nodup_cons.mp hnodup
      obtain ⟨hfirst, hmore⟩ := List.forall_mem_cons.mp haccepts
      obtain ⟨s₁, hread, hset⟩ := hfirst s
      obtain ⟨s', hs', hmembers, hothers⟩ := ih hrest hmore s₁
      refine ⟨s', ?_, List.forall_mem_cons.mpr ⟨?_, hmembers⟩, ?_⟩
      · unfold readAll
        rw [List.foldlM_cons, hread]
        exact hs'
      -- No later option has the key of `o`, so what was set stays.
      · rw [hothers o.key hfresh, hset, Json.lookup_setMember, if_pos rfl]
      · intro key hkey
        obtain ⟨hne, hout⟩ : key ≠ o.key ∧ key ∉ os.map Setting.key := by simpa using hkey
        rw [hothers key hout, hset, Json.lookup_setMember, if_neg hne]

theorem readAll_of_complains {before after : List Setting} {o : Setting} {e : SettingError}
    (hnodup : (before.map Setting.key).Nodup) (haccepts : ∀ p ∈ before, Accepts p (value p))
    (hread : ∀ s, o.read (value o) s = .error e) (s : Settings) :
    readAll value (before ++ o :: after) s = .error e := by
  obtain ⟨s', hs', -⟩ := readAll_of_accepts hnodup haccepts s
  unfold readAll at hs' ⊢
  rw [List.foldlM_append, hs']
  change (o.read (value o) s' >>= fun s => List.foldlM _ s after) = _
  rw [hread]
  rfl

theorem exists_read_of_readAll {s s' : Settings} (h : readAll value os s = .ok s') :
    ∀ o ∈ os, ∃ s₁ s₂, o.read (value o) s₁ = .ok s₂ := by
  induction os generalizing s with
  | nil => simp
  | cons o os ih =>
      unfold readAll at h
      rw [List.foldlM_cons] at h
      cases hread : o.read (value o) s with
      | error e =>
          rw [hread] at h
          cases h
      | ok s₁ =>
          rw [hread] at h
          exact List.forall_mem_cons.mpr ⟨⟨s, s₁, hread⟩, ih h⟩

end

/-! The last value of each option -/

theorem write_of_readAll {value : Setting → Json}
    (haccepts : ∀ o ∈ Setting.all, Accepts o (value o)) :
    ∃ s, readAll value Setting.all {} = .ok s ∧ ∀ o ∈ Setting.all, o.write s = value o := by
  obtain ⟨s, hs, hmembers, -⟩ := readAll_of_accepts keys_nodup haccepts {}
  refine ⟨s, hs, fun o ho => ?_⟩
  have hlookup := hmembers o ho
  rw [lookup_toMembers s ho] at hlookup
  exact Option.some.inj hlookup

section

variable {layers : List Json}

theorem effective_cases {o : Setting} (ho : o ∈ Setting.all) :
    ((∀ j ∈ lastValue? o.key layers, Suits o.key j) ∧ Accepts o (effective layers o)) ∨
    ∃ j, lastValue? o.key layers = some j ∧ ¬Suits o.key j ∧
      ∀ s, o.read (effective layers o) s = .error (complaint o.key j) := by
  unfold effective
  cases hlast : lastValue? o.key layers with
  | none => exact .inl ⟨by simp, accepts_write {} o ho⟩
  | some j =>
      rcases reads_all o ho j with ⟨hsuits, haccepts⟩ | ⟨hsuits, hread⟩
      · exact .inl ⟨by simpa using hsuits, haccepts⟩
      · exact .inr ⟨j, rfl, hsuits, hread⟩

theorem suits_of_ofLayers {s : Settings} (h : ofLayers layers = .ok s) :
    ∀ o ∈ Setting.all, ∀ j ∈ lastValue? o.key layers, Suits o.key j := by
  intro o ho
  rw [ofLayers_eq_readAll] at h
  obtain ⟨s₁, s₂, hread⟩ := exists_read_of_readAll h o ho
  rcases effective_cases ho with ⟨hsuits, -⟩ | ⟨j, -, -, herror⟩
  · exact hsuits
  · rw [herror s₁] at hread
    cases hread

theorem ofLayers_of_suits
    (hsuits : ∀ o ∈ Setting.all, ∀ j ∈ lastValue? o.key layers, Suits o.key j) :
    ∃ s, ofLayers layers = .ok s ∧ ∀ o ∈ Setting.all, o.write s = effective layers o := by
  rw [ofLayers_eq_readAll]
  refine write_of_readAll fun o ho => ?_
  rcases effective_cases ho with ⟨-, haccepts⟩ | ⟨j, hlast, hbad, -⟩
  · exact haccepts
  · exact absurd (hsuits o ho j hlast) hbad

theorem ofLayers_of_not_suits {before after : List Setting} {o : Setting}
    (hall : Setting.all = before ++ o :: after)
    (hsuits : ∀ p ∈ before, ∀ j ∈ lastValue? p.key layers, Suits p.key j) {j : Json}
    (hlast : lastValue? o.key layers = some j) (hbad : ¬Suits o.key j) :
    ofLayers layers = .error (complaint o.key j) := by
  have hmem : ∀ p ∈ before ++ [o], p ∈ Setting.all := by
    intro p hp
    rw [hall, List.append_cons]
    exact List.mem_append_left after hp
  have hnodup : (before.map Setting.key).Nodup := by
    have hkeys := keys_nodup
    rw [hall, List.map_append] at hkeys
    exact (List.nodup_append.mp hkeys).1
  rw [ofLayers_eq_readAll, hall]
  refine readAll_of_complains hnodup (fun p hp => ?_) ?_ {}
  · rcases effective_cases (hmem p (List.mem_append_left _ hp)) with
      ⟨-, haccepts⟩ | ⟨k, hk, hbad', -⟩
    · exact haccepts
    · exact absurd (hsuits p hp k hk) hbad'
  · rcases effective_cases (hmem o (by simp)) with ⟨hgood, -⟩ | ⟨k, hk, -, hread⟩
    · exact absurd (hgood j hlast) hbad
    · obtain rfl : k = j := Option.some.inj (hk.symm.trans hlast)
      exact hread

end

/-! What does not matter -/

theorem lastValue?_append (key : String) (before after : List Json) :
    lastValue? key (before ++ after) = (lastValue? key after).or (lastValue? key before) := by
  simp [lastValue?]

theorem lastValue?_cons (key : String) (layer : Json) (layers : List Json) :
    lastValue? key (layer :: layers) = (lastValue? key layers).or (valueIn? key layer) :=
  findSomeRev?_cons _ _ _

theorem lastValue?_replace {key : String} {layer layer' : Json} {after : List Json}
    (h : valueIn? key layer' = valueIn? key layer ∨ (lastValue? key after).isSome)
    (before : List Json) :
    lastValue? key (before ++ layer' :: after) = lastValue? key (before ++ layer :: after) := by
  rw [lastValue?_append, lastValue?_append, lastValue?_cons, lastValue?_cons]
  rcases h with hsame | hlater
  · rw [hsame]
  · obtain ⟨j, hj⟩ := Option.isSome_iff_exists.mp hlater
    simp only [hj, Option.some_or]

theorem valueIn?_eq_none {key : String} {layer : Json} (h : ∀ m ∈ optionsOf layer, m.1 ≠ key) :
    valueIn? key layer = none := by
  rw [valueIn?, List.findSomeRev?_eq_findSome?_reverse, List.findSome?_eq_none_iff]
  intro m hm
  exact if_neg (h m (List.mem_reverse.mp hm))

theorem lastValue?_swap {a b : Json} (h : ∀ m ∈ optionsOf a, ∀ n ∈ optionsOf b, m.1 ≠ n.1)
    (key : String) (before after : List Json) :
    lastValue? key (before ++ a :: b :: after) = lastValue? key (before ++ b :: a :: after) := by
  have hnone : valueIn? key a = none ∨ valueIn? key b = none := by
    by_cases hkey : ∃ m ∈ optionsOf a, m.1 = key
    · obtain ⟨m, hm, rfl⟩ := hkey
      exact .inr (valueIn?_eq_none fun n hn => (h m hm n hn).symm)
    · exact .inl (valueIn?_eq_none fun m hm heq => hkey ⟨m, hm, heq⟩)
  have hcomm : (valueIn? key b).or (valueIn? key a) = (valueIn? key a).or (valueIn? key b) := by
    rcases hnone with hnone | hnone <;> rw [hnone, Option.none_or, Option.or_none]
  rw [lastValue?_append, lastValue?_append]
  congr 1
  simp only [lastValue?_cons]
  rw [Option.or_assoc, hcomm, Option.or_assoc]

theorem findSomeRev?_eq_lookup {ms : List (String × Json)} (hms : (ms.map Prod.fst).Nodup)
    (key : String) :
    (ms.findSomeRev? fun m => if m.1 = key then some m.2 else none) = ms.lookup key := by
  induction ms with
  | nil => rfl
  | cons m ms ih =>
      obtain ⟨k, v⟩ := m
      obtain ⟨hfresh, hrest⟩ := List.nodup_cons.mp hms
      rw [findSomeRev?_cons, ih hrest, Json.lookup_cons]
      by_cases hkey : key = k
      · have hnone : ms.lookup k = none := by
          rw [List.lookup_eq_none_iff]
          rintro m hm
          have hne : k ≠ m.1 := fun heq => hfresh (List.mem_map.mpr ⟨m, hm, heq.symm⟩)
          exact bne_iff_ne.mpr hne
        rw [hkey, hnone, if_pos rfl]
        rfl
      · rw [if_neg hkey, if_neg (Ne.symm hkey), Option.or_none]

theorem valueIn?_toJson (c : Settings) {o : Setting} (ho : o ∈ Setting.all) :
    valueIn? o.key c.toJson = some (o.write c) := by
  have hoptions : optionsOf c.toJson = c.toMembers := rfl
  rw [valueIn?, hoptions, findSomeRev?_eq_lookup c.keys_toMembers, lookup_toMembers c ho]

theorem ofLayers_toJson (layers : List Json) (c : Settings) :
    ofLayers (layers ++ [c.toJson]) = .ok c := by
  have hvalue : ∀ o ∈ Setting.all, effective (layers ++ [c.toJson]) o = o.write c := by
    intro o ho
    rw [effective, lastValue?_append, lastValue?_cons, valueIn?_toJson c ho]
    rfl
  have haccepts : ∀ o ∈ Setting.all, Accepts o (effective (layers ++ [c.toJson]) o) := by
    intro o ho
    rw [hvalue o ho]
    exact accepts_write c o ho
  obtain ⟨s, hs, hwrite⟩ := write_of_readAll haccepts
  obtain rfl : s = c := eq_of_write fun o ho => (hwrite o ho).trans (hvalue o ho)
  rw [ofLayers_eq_readAll, hs]

theorem ofLayers_last_writer (layers : List Json) :
    ((∃ s, ofLayers layers = .ok s) ↔
      ∀ o ∈ Setting.all, ∀ j ∈ lastValue? o.key layers, Suits o.key j) ∧
    (∀ s, ofLayers layers = .ok s →
      ∀ o ∈ Setting.all, o.write s = (lastValue? o.key layers).getD (o.write {})) ∧
    (∀ before o after j, Setting.all = before ++ o :: after →
      (∀ p ∈ before, ∀ j ∈ lastValue? p.key layers, Suits p.key j) →
      lastValue? o.key layers = some j → ¬Suits o.key j →
      ofLayers layers = .error (complaint o.key j) ∧ ofLayersOrDefault layers = {}) ∧
    -- What a layer says of other keys, or of keys that later layers mention, does not matter.
    (∀ before layer layer' after, layers = before ++ layer :: after →
      (∀ o ∈ Setting.all,
        valueIn? o.key layer' = valueIn? o.key layer ∨ (lastValue? o.key after).isSome) →
      ofLayers (before ++ layer' :: after) = ofLayers layers) ∧
    (∀ before a b after, layers = before ++ a :: b :: after →
      (∀ m ∈ optionsOf a, ∀ n ∈ optionsOf b, m.1 ≠ n.1) →
      ofLayers (before ++ b :: a :: after) = ofLayers layers) ∧
    ∀ c : Settings, ofLayers (layers ++ [c.toJson]) = .ok c := by
  refine ⟨⟨?_, ?_⟩, ?_, ?_, ?_, ?_, ofLayers_toJson layers⟩
  · rintro ⟨s, hs⟩
    exact suits_of_ofLayers hs
  · intro hsuits
    obtain ⟨s, hs, -⟩ := ofLayers_of_suits hsuits
    exact ⟨s, hs⟩
  · intro s hs
    obtain ⟨s', hs', hwrite⟩ := ofLayers_of_suits (suits_of_ofLayers hs)
    obtain rfl : s' = s := Except.ok.inj (hs'.symm.trans hs)
    exact hwrite
  · intro before o after j hall hsuits hlast hbad
    have herror := ofLayers_of_not_suits hall hsuits hlast hbad
    refine ⟨herror, ?_⟩
    unfold ofLayersOrDefault
    rw [herror]
  · rintro before layer layer' after rfl hsame
    exact ofLayers_congr fun o ho => lastValue?_replace (hsame o ho) before
  · rintro before a b after rfl hdisjoint
    exact ofLayers_congr fun o _ => (lastValue?_swap hdisjoint o.key before after).symm

theorem ofLayers_last_writer_overridden :
    ofLayers [.object [("phpforge", .object [("setter-return-self", .string "yes")])],
        .object [("setter-return-self", .bool true), ("builder-strict-types", .bool false)],
        .object [("constructor-args-one-line-max-length", .number (.whole (-1)))]] =
      .error (.negative (-1)) :=
  ((ofLayers_last_writer _).2.2.1 (Setting.all.take 12) _ [] (.number (.whole (-1))) rfl
    (by decide) rfl (by decide)).1

end Settings

end Scaffold
