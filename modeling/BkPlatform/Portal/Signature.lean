import BkPlatform.Lib.Parameters
import BkPlatform.Portal.Instance
import Mathlib.Data.List.Sort

/-!
# The signature of a request

`postRequest` and `getRequest` sign a string made of the parameters: sorted, joined with
`=` and `&`, in lower case, with `%20` for a space.  CloudStack signs the parameters as they
are encoded for the URL; here nothing but the space is, so that a value with `&` and `=` in
it reads as two parameters, and one signature goes with two requests.

## Main definitions

* `Args` — the arguments of a request.
* `Args.posted` — the parameters with the API key.
* `stringToSign` — the string handed to `genSignature`.
* `Binds` — requests with one string have the same parameters up to case.

## Main results

* `binds_iff` — **exactly for which characters of the values the string binds the request.**
-/

namespace BkPlatform.Portal

open RubyString Parameters

/-! ### The arguments -/

/-- An argument map.  Its names are the symbols the callers write, letters and digits. -/
structure Args where
  pairs : List (String × String)
  nodup : (pairs.map Prod.fst).Nodup
  plain : ∀ p ∈ pairs, p.1.toList.all Char.isAlphanum = true

/-- `dargs.merge!({apiKey: ...})`. -/
def mergeApiKey (apiKey : String) (pairs : List (String × String)) : List (String × String) :=
  if pairs.any fun p => p.1 == "apiKey" then
    pairs.map fun p => if p.1 == "apiKey" then (p.1, apiKey) else p
  else pairs ++ [("apiKey", apiKey)]

/-- The parameters that are posted, but for the signature. -/
def Args.posted (apiKey : String) (args : Args) : List (String × String) :=
  mergeApiKey apiKey args.pairs

/-- `sort`: the names are distinct, and the values never compared. -/
def sortByName (pairs : List (String × String)) : List (String × String) :=
  pairs.insertionSort fun p q => p.1 ≤ q.1

/-- `each` with `str += "k=v&"`. -/
def joinPairs (pairs : List (String × String)) : String :=
  pairs.foldl (fun str p => str ++ p.1 ++ "=" ++ p.2 ++ "&") ""

/-- `gsub(' ', '%20')`. -/
def escapeSpaces (s : String) : String :=
  String.ofList (s.toList.flatMap fun c => if c = ' ' then ['%', '2', '0'] else [c])

/-- The string `postRequest` and `getRequest` sign: without the last `&`, in lower case. -/
def stringToSign (apiKey : String) (args : Args) : String :=
  let str := joinPairs (sortByName (args.posted apiKey))
  escapeSpaces (downcase (String.ofList str.toList.dropLast))

/-! ### What a signature says -/

/-- A parameter in lower case. -/
def lowerPair (p : String × String) : String × String := (downcase p.1, downcase p.2)

/-- The same parameters up to letter case. -/
def SameUpToCase (ps qs : List (String × String)) : Prop :=
  (ps.map lowerPair).Perm (qs.map lowerPair)

/-- The values are made of these characters. -/
def Args.Over (allowed : Char → Prop) (args : Args) : Prop :=
  ∀ p ∈ args.pairs, ∀ c ∈ p.2.toList, allowed c

/-- **The string binds the request**, as long as the values are made of these characters. -/
def Binds (apiKey : String) (allowed : Char → Prop) : Prop :=
  ∀ a b : Args, a.Over allowed → b.Over allowed → stringToSign apiKey a = stringToSign apiKey b →
    SameUpToCase (a.posted apiKey) (b.posted apiKey)

/-! ### The string as a word -/

/-- The characters of the pairs. -/
def chars (pairs : List (String × String)) : List (List Char × List Char) :=
  pairs.map fun p => (p.1.toList, p.2.toList)

/-- Lower case, with the spaces escaped. -/
def encode (cs : List Char) : List Char :=
  (cs.map Char.toLower).flatMap fun c => if c = ' ' then ['%', '2', '0'] else [c]

@[simp] theorem encode_append (xs ys : List Char) : encode (xs ++ ys) = encode xs ++ encode ys := by
  simp [encode]

theorem encode_cons (c : Char) (cs : List Char) : encode (c :: cs) = encode [c] ++ encode cs :=
  encode_append [c] cs

/-- Each pair is written before a separator, and can be read behind the one before. -/
theorem toList_foldl (pairs : List (String × String)) (acc : String) (w : List Char)
    (hacc : '&' :: acc.toList = w ++ ['&']) :
    '&' :: (pairs.foldl (fun str p => str ++ p.1 ++ "=" ++ p.2 ++ "&") acc).toList =
      w ++ word '&' '=' (chars pairs) ++ ['&'] := by
  induction pairs generalizing acc w with
  | nil => simpa [chars, word] using hacc
  | cons p pairs ih =>
    have hstep : '&' :: (acc ++ p.1 ++ "=" ++ p.2 ++ "&").toList =
        (w ++ '&' :: (p.1.toList ++ '=' :: p.2.toList)) ++ ['&'] := by
      have hsplit : '&' :: (acc ++ p.1 ++ "=" ++ p.2 ++ "&").toList =
          ('&' :: acc.toList) ++ (p.1.toList ++ '=' :: p.2.toList ++ ['&']) := by
        simp
      rw [hsplit, hacc]
      simp
    rw [List.foldl_cons, ih _ _ hstep]
    simp [chars, word]

theorem toList_joinPairs {pairs : List (String × String)} (hne : pairs ≠ []) :
    '&' :: (joinPairs pairs).toList.dropLast = word '&' '=' (chars pairs) := by
  have hjoin : '&' :: (joinPairs pairs).toList = word '&' '=' (chars pairs) ++ ['&'] :=
    toList_foldl pairs "" [] rfl
  have hword : word '&' '=' (chars pairs) ≠ [] := by
    obtain ⟨p, ps, rfl⟩ := List.exists_cons_of_ne_nil hne
    simp [chars, word]
  have htext : (joinPairs pairs).toList ≠ [] := by
    intro h
    have hlength := congrArg List.length hjoin
    rw [h] at hlength
    simp [hword] at hlength
  rw [← List.dropLast_cons_of_ne_nil htext, hjoin, List.dropLast_concat]

theorem encode_word (pairs : List (List Char × List Char)) :
    encode (word '&' '=' pairs) = word '&' '=' (pairs.map (Prod.map encode encode)) := by
  induction pairs with
  | nil => rfl
  | cons p pairs ih =>
    have hcons : word '&' '=' (p :: pairs) =
        ['&'] ++ (p.1 ++ (['='] ++ p.2)) ++ word '&' '=' pairs := by simp [word]
    have hamp : encode ['&'] = ['&'] := by decide
    have heq : encode ['='] = ['='] := by decide
    rw [hcons, encode_append, encode_append, encode_append, encode_append, hamp, heq, ih]
    simp [word]

theorem sortByName_perm (pairs : List (String × String)) : (sortByName pairs).Perm pairs :=
  List.perm_insertionSort _ pairs

theorem posted_ne_nil (apiKey : String) (args : Args) : args.posted apiKey ≠ [] := by
  unfold Args.posted mergeApiKey
  split
  · next h =>
    obtain ⟨p, hp, -⟩ := List.any_eq_true.mp h
    exact List.ne_nil_of_mem (List.mem_map_of_mem hp)
  · simp

/-- **The string that is signed is the word of the encoded parameters**, but for the first
separator. -/
theorem toList_stringToSign (apiKey : String) (args : Args) :
    '&' :: (stringToSign apiKey args).toList =
      word '&' '=' ((chars (sortByName (args.posted apiKey))).map (Prod.map encode encode)) := by
  have hne : sortByName (args.posted apiKey) ≠ [] := by
    intro h
    have hperm := sortByName_perm (args.posted apiKey)
    rw [h, List.nil_perm] at hperm
    exact posted_ne_nil apiKey args hperm
  have hamp : encode ['&'] = ['&'] := by decide
  have htext : (stringToSign apiKey args).toList =
      encode (joinPairs (sortByName (args.posted apiKey))).toList.dropLast := by
    simp [stringToSign, escapeSpaces, downcase, encode]
  rw [htext, ← encode_word, ← toList_joinPairs hne, encode_cons, hamp]
  rfl

/-! ### Reading the word -/

/-- A symbol that is no small letter, no space and not part of its escape is in the encoded
word only if it was in the text. -/
theorem mem_of_mem_encode {x : Char} (hlower : x.isLower = false)
    (hx : x ∉ ['%', '2', '0']) {cs : List Char} (h : x ∈ encode cs) : x ∈ cs := by
  obtain ⟨c, hc, hmem⟩ := List.mem_flatMap.mp h
  obtain ⟨d, hd, rfl⟩ := List.mem_map.mp hc
  split at hmem
  · exact absurd hmem hx
  · obtain rfl := List.mem_singleton.mp hmem
    have hsame : d = d.toLower := eq_of_toLower hlower rfl
    rw [← hsame]
    exact hd

/-- A symbol that is no small letter is in lower-case text only if it was in the text. -/
theorem not_mem_lower {x : Char} (hlower : x.isLower = false) {cs : List Char} (h : x ∉ cs) :
    x ∉ cs.map Char.toLower := by
  intro hmem
  obtain ⟨c, hc, hx⟩ := List.mem_map.mp hmem
  exact h (eq_of_toLower hlower hx ▸ hc)

/-- Spaces can be put back if no percent sign stands in the text. -/
theorem unescape {xs ys : List Char} (hxs : '%' ∉ xs) (hys : '%' ∉ ys)
    (h : xs.flatMap (fun c => if c = ' ' then ['%', '2', '0'] else [c]) =
      ys.flatMap fun c => if c = ' ' then ['%', '2', '0'] else [c]) : xs = ys := by
  have hne : ∀ c : Char, (if c = ' ' then ['%', '2', '0'] else [c]) ≠ [] := by
    intro c
    split <;> simp
  induction xs generalizing ys with
  | nil =>
    cases ys with
    | nil => rfl
    | cons y ys => simp [hne] at h
  | cons x xs ih =>
    cases ys with
    | nil => simp [hne] at h
    | cons y ys =>
      rw [List.mem_cons, not_or] at hxs hys
      rw [List.flatMap_cons, List.flatMap_cons] at h
      by_cases hx : x = ' '
      · by_cases hy : y = ' '
        · subst hx hy
          rw [ih hxs.2 hys.2 (by simpa using h)]
        · -- an escape against another character
          simp [hx, hy] at h
          exact absurd h.1 hys.1
      · by_cases hy : y = ' '
        · simp [hx, hy] at h
          exact absurd h.1.symm hxs.1
        · simp [hx, hy] at h
          rw [h.1, ih hxs.2 hys.2 h.2]

/-- Text in which no space, or no percent sign, stands can be read from its encoding up to
case. -/
theorem lower_of_encode {xs ys : List Char}
    (hlack : (' ' ∉ xs ∧ ' ' ∉ ys) ∨ ('%' ∉ xs ∧ '%' ∉ ys)) (h : encode xs = encode ys) :
    xs.map Char.toLower = ys.map Char.toLower := by
  rcases hlack with ⟨hxs, hys⟩ | ⟨hxs, hys⟩
  · have hplain : ∀ {cs : List Char}, ' ' ∉ cs → encode cs = cs.map Char.toLower := by
      intro cs hcs
      have hlower := not_mem_lower rfl hcs
      have hsame : ∀ c ∈ cs.map Char.toLower,
          (if c = ' ' then ['%', '2', '0'] else [c]) = [c] := by
        intro c hc
        refine if_neg ?_
        rintro rfl
        exact hlower hc
      rw [encode, List.flatMap_congr hsame, List.flatMap_singleton']
    rwa [hplain hxs, hplain hys] at h
  · exact unescape (not_mem_lower rfl hxs) (not_mem_lower rfl hys) h

/-! ### The condition -/

variable {apiKey : String} {allowed : Char → Prop}

/-- Parameters that are named with letters and digits, with allowed values. -/
def Proper (allowed : Char → Prop) (pairs : List (String × String)) : Prop :=
  ∀ p ∈ pairs, p.1.toList.all Char.isAlphanum = true ∧ ∀ c ∈ p.2.toList, allowed c

theorem proper_posted (hkey : ∀ c ∈ apiKey.toList, allowed c) {args : Args}
    (hover : args.Over allowed) : Proper allowed (args.posted apiKey) := by
  unfold Args.posted mergeApiKey
  split
  · intro p hp
    obtain ⟨q, hq, rfl⟩ := List.mem_map.mp hp
    split
    · exact ⟨args.plain q hq, hkey⟩
    · exact ⟨args.plain q hq, hover q hq⟩
  · intro p hp
    rcases List.mem_append.mp hp with hq | hlast
    · exact ⟨args.plain p hq, hover p hq⟩
    · obtain rfl := List.mem_singleton.mp hlast
      refine ⟨?_, hkey⟩
      show "apiKey".toList.all Char.isAlphanum = true
      decide

theorem Proper.name {pairs : List (String × String)} (h : Proper allowed pairs) {x : Char}
    (hx : x.isAlphanum = false) : ∀ p ∈ pairs, x ∉ p.1.toList := by
  intro p hp hmem
  have hplain := List.all_eq_true.mp (h p hp).1 x hmem
  rw [hx] at hplain
  exact Bool.false_ne_true hplain

theorem Proper.value {pairs : List (String × String)} (h : Proper allowed pairs) {x : Char}
    (hx : ¬ allowed x) : ∀ p ∈ pairs, x ∉ p.2.toList :=
  fun p hp hmem => hx ((h p hp).2 x hmem)

/-- The encoded parameters, with the names free of both symbols. -/
theorem Proper.named {pairs : List (String × String)} (h : Proper allowed pairs) :
    Named '&' '=' ((chars pairs).map (Prod.map encode encode)) := by
  have hfree : ∀ x : Char, x.isLower = false → x ∉ ['%', '2', '0'] → x.isAlphanum = false →
      ∀ r ∈ (chars pairs).map (Prod.map encode encode), x ∉ r.1 := by
    intro x hlower hx hplain r hr hmem
    obtain ⟨q, hq, rfl⟩ := List.mem_map.mp hr
    obtain ⟨p, hp, rfl⟩ := List.mem_map.mp hq
    exact h.name hplain p hp (mem_of_mem_encode hlower hx hmem)
  exact ⟨hfree '&' rfl (by decide) rfl, hfree '=' rfl (by decide) rfl⟩

/-- A symbol that is not allowed is in no encoded value. -/
theorem Proper.lacking {pairs : List (String × String)} (h : Proper allowed pairs) {x : Char}
    (hlower : x.isLower = false) (hx : x ∉ ['%', '2', '0']) (hnot : ¬ allowed x) :
    ∀ r ∈ (chars pairs).map (Prod.map encode encode), x ∉ r.2 := by
  intro r hr hmem
  obtain ⟨q, hq, rfl⟩ := List.mem_map.mp hr
  obtain ⟨p, hp, rfl⟩ := List.mem_map.mp hq
  exact h.value hnot p hp (mem_of_mem_encode hlower hx hmem)

/-- Parameters with one encoding are the same up to case. -/
theorem lowerPair_of_encode {ps qs : List (String × String)}
    (hlack : (∀ p ∈ ps ++ qs, ' ' ∉ p.1.toList ∧ ' ' ∉ p.2.toList) ∨
      ∀ p ∈ ps ++ qs, '%' ∉ p.1.toList ∧ '%' ∉ p.2.toList)
    (h : (chars ps).map (Prod.map encode encode) = (chars qs).map (Prod.map encode encode)) :
    ps.map lowerPair = qs.map lowerPair := by
  induction ps generalizing qs with
  | nil =>
    cases qs with
    | nil => rfl
    | cons q qs => simp [chars] at h
  | cons p ps ih =>
    cases qs with
    | nil => simp [chars] at h
    | cons q qs =>
      obtain ⟨hpair, hrest⟩ := List.cons.inj h
      obtain ⟨hname, hvalue⟩ := Prod.mk.inj hpair
      have hp : p ∈ (p :: ps) ++ (q :: qs) := by simp
      have hq : q ∈ (p :: ps) ++ (q :: qs) := by simp
      have hname' := lower_of_encode (hlack.imp (fun h => ⟨(h p hp).1, (h q hq).1⟩)
        fun h => ⟨(h p hp).1, (h q hq).1⟩) hname
      have hvalue' := lower_of_encode (hlack.imp (fun h => ⟨(h p hp).2, (h q hq).2⟩)
        fun h => ⟨(h p hp).2, (h q hq).2⟩) hvalue
      have hfewer : ∀ r ∈ ps ++ qs, r ∈ (p :: ps) ++ (q :: qs) := by
        intro r hr
        rcases List.mem_append.mp hr with hr | hr
        · simp [hr]
        · simp [hr]
      rw [List.map_cons, List.map_cons,
        ih (hlack.imp (fun h r hr => h r (hfewer r hr)) fun h r hr => h r (hfewer r hr)) hrest,
        lowerPair, lowerPair, downcase, downcase, downcase, downcase, hname', hvalue']

/-- The string binds the request if the values lack one of `&` and `=`, and one of the space
and `%`. -/
theorem binds_of_lacking (hkey : ∀ c ∈ apiKey.toList, allowed c)
    (hpair : ¬ (allowed '&' ∧ allowed '=')) (hspace : ¬ (allowed ' ' ∧ allowed '%')) :
    Binds apiKey allowed := by
  intro a b ha hb hstring
  have hsorted : ∀ {args : Args}, args.Over allowed →
      Proper allowed (sortByName (args.posted apiKey)) := fun hover p hp =>
    proper_posted hkey hover p ((sortByName_perm _).mem_iff.mp hp)
  have hpa := hsorted ha
  have hpb := hsorted hb
  -- the word is read from its end
  have hword := (toList_stringToSign apiKey a).symm.trans
    ((congrArg (fun s => '&' :: String.toList s) hstring).trans (toList_stringToSign apiKey b))
  have hlack : Lacking '&' '='
      ((chars (sortByName (a.posted apiKey))).map (Prod.map encode encode) ++
        (chars (sortByName (b.posted apiKey))).map (Prod.map encode encode)) := by
    rcases not_and_or.mp hpair with hnot | hnot
    · exact Or.inl (List.forall_mem_append.mpr ⟨hpa.lacking rfl (by decide) hnot,
        hpb.lacking rfl (by decide) hnot⟩)
    · exact Or.inr (List.forall_mem_append.mpr ⟨hpa.lacking rfl (by decide) hnot,
        hpb.lacking rfl (by decide) hnot⟩)
  have hpairs := word_injective (by decide) hpa.named hpb.named hlack hword
  -- and each pair up to case
  have hfree : ∀ x : Char, x.isAlphanum = false → ¬ allowed x →
      ∀ p ∈ sortByName (a.posted apiKey) ++ sortByName (b.posted apiKey),
        x ∉ p.1.toList ∧ x ∉ p.2.toList := by
    intro x hplain hnot p hp
    rcases List.mem_append.mp hp with hp | hp
    · exact ⟨hpa.name hplain p hp, hpa.value hnot p hp⟩
    · exact ⟨hpb.name hplain p hp, hpb.value hnot p hp⟩
  have hlower := lowerPair_of_encode ((not_and_or.mp hspace).imp (hfree ' ' rfl) (hfree '%' rfl))
    hpairs
  have hfirst := (sortByName_perm (a.posted apiKey)).symm.map lowerPair
  rw [hlower] at hfirst
  exact hfirst.trans ((sortByName_perm (b.posted apiKey)).map lowerPair)

/-! ### The requests of the portal -/

/-- The arguments the callers write, a nil as the empty string it is joined as. -/
def Request.pairs : Request → List (String × String)
  | .listVirtualMachines id => [("command", "listVirtualMachines"), ("id", id.getD "")]
  | .queryAsyncJobResult jobid => [("command", "queryAsyncJobResult"), ("jobid", jobid.getD "")]
  | .deployVirtualMachine args =>
    [("command", "deployVirtualMachine"), ("serviceofferingid", args.serviceofferingid.getD ""),
      ("templateid", args.templateid.getD ""), ("zoneid", args.zoneid), ("name", args.name),
      ("displayname", args.displayname)] ++
      args.diskofferingid.toList.map fun id => ("diskofferingid", id.getD "")
  | .startVirtualMachine id => [("command", "startVirtualMachine"), ("id", id.getD "")]
  | .stopVirtualMachine id true =>
    [("command", "stopVirtualMachine"), ("id", id.getD ""), ("forced", "true")]
  | .stopVirtualMachine id false => [("command", "stopVirtualMachine"), ("id", id.getD "")]
  | .destroyVirtualMachine id => [("command", "destroyVirtualMachine"), ("id", id.getD "")]

/-- The names the callers write. -/
def callerNames : List String :=
  ["command", "id", "jobid", "forced", "serviceofferingid", "templateid", "zoneid", "name",
    "displayname", "diskofferingid"]

theorem Request.nodup_pairs (r : Request) : (r.pairs.map Prod.fst).Nodup := by
  cases r with
  | deployVirtualMachine args =>
    cases hdisk : args.diskofferingid with
    | none => simp [pairs, hdisk]
    | some id => simp [pairs, hdisk]
  | stopVirtualMachine id forced =>
    cases forced with
    | true => simp [pairs]
    | false => simp [pairs]
  | listVirtualMachines id => simp [pairs]
  | queryAsyncJobResult jobid => simp [pairs]
  | startVirtualMachine id => simp [pairs]
  | destroyVirtualMachine id => simp [pairs]

theorem Request.mem_callerNames (r : Request) : ∀ p ∈ r.pairs, p.1 ∈ callerNames := by
  cases r with
  | deployVirtualMachine args =>
    cases hdisk : args.diskofferingid with
    | none => simp [pairs, hdisk, callerNames]
    | some id => simp [pairs, hdisk, callerNames]
  | stopVirtualMachine id forced =>
    cases forced with
    | true => simp [pairs, callerNames]
    | false => simp [pairs, callerNames]
  | listVirtualMachines id => simp [pairs, callerNames]
  | queryAsyncJobResult jobid => simp [pairs, callerNames]
  | startVirtualMachine id => simp [pairs, callerNames]
  | destroyVirtualMachine id => simp [pairs, callerNames]

/-- A request of the portal as it is posted: the names are distinct, and plain. -/
def Request.args (r : Request) : Args where
  pairs := r.pairs
  nodup := r.nodup_pairs
  plain := fun p hp =>
    (by decide : ∀ k ∈ callerNames, k.toList.all Char.isAlphanum = true) p.1
      (r.mem_callerNames p hp)

/-- **Two requests of the portal whose values have neither `&` nor `%`** are bound by their
strings. -/
theorem Request.bound {r r' : Request} (hkey : ∀ c ∈ apiKey.toList, c ≠ '&' ∧ c ≠ '%')
    (hr : r.args.Over fun c => c ≠ '&' ∧ c ≠ '%') (hr' : r'.args.Over fun c => c ≠ '&' ∧ c ≠ '%')
    (hstring : stringToSign apiKey r.args = stringToSign apiKey r'.args) :
    SameUpToCase (r.args.posted apiKey) (r'.args.posted apiKey) :=
  binds_of_lacking hkey (fun h => h.1.1 rfl) (fun h => h.2.2 rfl) _ _ hr hr' hstring

/-! ### One string for two requests -/

/-- A request with a name. -/
def nameArgs (name : String) : Args where
  pairs := [("name", name)]
  nodup := by simp
  plain := List.forall_mem_cons.mpr
    ⟨(by decide : "name".toList.all Char.isAlphanum = true), fun _ h => absurd h List.not_mem_nil⟩

/-- A request with a name and a zone. -/
def zoneArgs (name zoneid : String) : Args where
  pairs := [("name", name), ("zoneid", zoneid)]
  nodup := by simp
  plain := List.forall_mem_cons.mpr
    ⟨(by decide : "name".toList.all Char.isAlphanum = true), List.forall_mem_cons.mpr
      ⟨(by decide : "zoneid".toList.all Char.isAlphanum = true),
        fun _ h => absurd h List.not_mem_nil⟩⟩

theorem sorted_nameArgs (apiKey name : String) :
    sortByName ((nameArgs name).posted apiKey) = [("apiKey", apiKey), ("name", name)] := by
  have hname : ¬ ("name" : String) ≤ "apiKey" := by decide
  simp [sortByName, Args.posted, mergeApiKey, nameArgs, hname]

theorem sorted_zoneArgs (apiKey name zoneid : String) :
    sortByName ((zoneArgs name zoneid).posted apiKey) =
      [("apiKey", apiKey), ("name", name), ("zoneid", zoneid)] := by
  have hname : ¬ ("name" : String) ≤ "apiKey" := by decide
  have hzone : ¬ ("zoneid" : String) ≤ "apiKey" := by decide
  have hsorted : ("name" : String) ≤ "zoneid" := by decide
  simp [sortByName, Args.posted, mergeApiKey, zoneArgs, hname, hzone, hsorted]

/-- Two requests have one string if their encoded parameters make one word. -/
theorem stringToSign_eq {a b : Args}
    (h : word '&' '=' ((chars (sortByName (a.posted apiKey))).map (Prod.map encode encode)) =
      word '&' '=' ((chars (sortByName (b.posted apiKey))).map (Prod.map encode encode))) :
    stringToSign apiKey a = stringToSign apiKey b := by
  rw [← toList_stringToSign, ← toList_stringToSign] at h
  exact String.toList_inj.mp (List.cons.inj h).2

/-- A name with both symbols reads as a name and a zone. -/
theorem not_binds_of_pair (hplain : ∀ c : Char, c.isAlphanum = true → allowed c)
    (hamp : allowed '&') (heq : allowed '=') : ¬ Binds apiKey allowed := by
  intro h
  have hover : (nameArgs "&zoneid=").Over allowed := by
    intro p hp c hc
    obtain rfl := List.mem_singleton.mp hp
    have hall : "&zoneid=".toList.all (fun c => c == '&' || c == '=' || c.isAlphanum) = true := by
      decide
    have hcases : c = '&' ∨ c = '=' ∨ c.isAlphanum = true := by
      simpa [or_assoc] using List.all_eq_true.mp hall c hc
    rcases hcases with rfl | rfl | hc
    · exact hamp
    · exact heq
    · exact hplain c hc
  have hover' : (zoneArgs "" "").Over allowed := by
    intro p hp c hc
    have hempty : p.2 = "" := by
      rcases List.mem_pair.mp hp with rfl | rfl
      · rfl
      · rfl
    rw [hempty] at hc
    exact absurd hc List.not_mem_nil
  have hstring : stringToSign apiKey (nameArgs "&zoneid=") =
      stringToSign apiKey (zoneArgs "" "") := by
    have hvalue : encode "&zoneid=".toList =
        [] ++ '&' :: (encode "zoneid".toList ++ '=' :: []) := by decide
    have hmerge := word_merge '&' '=' (encode "name".toList) [] (encode "zoneid".toList) []
    refine stringToSign_eq ?_
    rw [sorted_nameArgs, sorted_zoneArgs]
    simp only [chars, List.map_cons, List.map_nil, Prod.map]
    rw [word_cons, hvalue, hmerge, ← word_cons]
    rfl
  have hlength := (h _ _ hover hover' hstring).length_eq
  simp [Args.posted, mergeApiKey, nameArgs, zoneArgs] at hlength

/-- A name with a space has the string of one with its escape. -/
theorem not_binds_of_space (hplain : ∀ c : Char, c.isAlphanum = true → allowed c)
    (hspace : allowed ' ') (hpercent : allowed '%') : ¬ Binds apiKey allowed := by
  intro h
  have hover : (nameArgs " ").Over allowed := by
    intro p hp c hc
    obtain rfl := List.mem_singleton.mp hp
    obtain rfl : c = ' ' := List.mem_singleton.mp hc
    exact hspace
  have hover' : (nameArgs "%20").Over allowed := by
    intro p hp c hc
    obtain rfl := List.mem_singleton.mp hp
    have hall : "%20".toList.all (fun c => c == '%' || c.isAlphanum) = true := by decide
    have hcases : c = '%' ∨ c.isAlphanum = true := by
      simpa using List.all_eq_true.mp hall c hc
    rcases hcases with rfl | hc
    · exact hpercent
    · exact hplain c hc
  have hstring : stringToSign apiKey (nameArgs " ") = stringToSign apiKey (nameArgs "%20") := by
    refine stringToSign_eq ?_
    rw [sorted_nameArgs, sorted_nameArgs]
    simp [chars, word, encode]
  -- the first has a parameter that the second has not
  have hsame : ∀ p, p ∈ ((nameArgs " ").posted apiKey).map lowerPair ↔
      p ∈ ((nameArgs "%20").posted apiKey).map lowerPair :=
    fun _ => (h _ _ hover hover' hstring).mem_iff
  have hposted : ∀ name, (nameArgs name).posted apiKey = [("name", name), ("apiKey", apiKey)] := by
    intro name
    simp [Args.posted, mergeApiKey, nameArgs]
  rw [hposted, hposted] at hsame
  obtain ⟨p, hp, hlower⟩ := List.mem_map.mp ((hsame ("name", " ")).mp (by
    refine List.mem_map.mpr ⟨("name", " "), List.mem_cons_self, ?_⟩
    decide))
  rcases List.mem_pair.mp hp with rfl | rfl
  · exact absurd hlower (by decide)
  · have hname : downcase "apiKey" = "name" := congrArg Prod.fst hlower
    exact absurd hname (by decide)

/-- **The string binds the request exactly if the values lack one of `&` and `=`, and one of
the space and `%`**, as long as letters and digits are among their characters. -/
theorem binds_iff (hkey : ∀ c ∈ apiKey.toList, allowed c)
    (hplain : ∀ c : Char, c.isAlphanum = true → allowed c) :
    Binds apiKey allowed ↔ ¬ (allowed '&' ∧ allowed '=') ∧ ¬ (allowed ' ' ∧ allowed '%') := by
  constructor
  · exact fun h => ⟨fun hpair => not_binds_of_pair hplain hpair.1 hpair.2 h,
      fun hspace => not_binds_of_space hplain hspace.1 hspace.2 h⟩
  · exact fun h => binds_of_lacking hkey h.1 h.2

/-- Letters, digits, the hyphen and the underscore are safe. -/
theorem binds_hyphenated :
    Binds "your_api_key" fun c => c.isAlphanum = true ∨ c = '-' ∨ c = '_' := by
  have hall : "your_api_key".toList.all (fun c => c.isAlphanum || c == '-' || c == '_') = true := by
    decide
  have hkey : ∀ c ∈ "your_api_key".toList, c.isAlphanum = true ∨ c = '-' ∨ c = '_' :=
    fun c hc => by simpa [or_assoc] using List.all_eq_true.mp hall c hc
  exact (binds_iff hkey fun _ hc => Or.inl hc).mpr ⟨by decide, by decide⟩

/-- The deployment of a user called `an&projectid=p2`. -/
def namedRequest : Args :=
  (Request.deployVirtualMachine
    { serviceofferingid := some "so-1", templateid := some "tpl-1",
      zoneid := "c70a4033-3a72-4900-8aa3-8f1bee765d4b", name := "an&projectid=p2-desk",
      displayname := "desk", diskofferingid := none }).args

/-- A deployment into a project, which the portal never asks for. -/
def projectRequest : Args where
  pairs := [("command", "deployVirtualMachine"), ("serviceofferingid", "so-1"),
    ("templateid", "tpl-1"), ("zoneid", "c70a4033-3a72-4900-8aa3-8f1bee765d4b"), ("name", "an"),
    ("displayname", "desk"), ("projectid", "p2-desk")]
  nodup := by decide
  plain := by decide

/-- **The first has the signature of the second.** -/
theorem one_signature_for_two :
    stringToSign "key" namedRequest = stringToSign "key" projectRequest ∧
      ¬ SameUpToCase (namedRequest.posted "key") (projectRequest.posted "key") := by
  have hnamed : sortByName (namedRequest.posted "key") =
      [("apiKey", "key"), ("command", "deployVirtualMachine"), ("displayname", "desk"),
        ("name", "an&projectid=p2-desk"), ("serviceofferingid", "so-1"), ("templateid", "tpl-1"),
        ("zoneid", "c70a4033-3a72-4900-8aa3-8f1bee765d4b")] := by decide +kernel
  have hproject : sortByName (projectRequest.posted "key") =
      [("apiKey", "key"), ("command", "deployVirtualMachine"), ("displayname", "desk"),
        ("name", "an"), ("projectid", "p2-desk"), ("serviceofferingid", "so-1"),
        ("templateid", "tpl-1"), ("zoneid", "c70a4033-3a72-4900-8aa3-8f1bee765d4b")] := by
    decide +kernel
  constructor
  · refine stringToSign_eq ?_
    rw [hnamed, hproject]
    simp [chars, word, encode]
  · intro h
    exact absurd h.length_eq (by decide)

end BkPlatform.Portal
