import BkPlatform.Mysql.ConfigFile

/-!
# What deleting a node deletes

`appendNodeToFile` writes one to four sections for a node; `deleteNodeFromFile` deletes the
sections that mention its address.  The address is used as a regular expression without
anchors: its dots stand for any character, and it may be found inside of a longer number, in
an address as well as in a `NodeId`.

## Main definitions

* `appendNodeToFile`, `Call`, `configFile` — the file as it is written.
* `mentions` — the expression made from an address.
* `ConfigSection`, `Call.sections` — the file as sections.

## Main results

* `mentions_entryLine` — an address is found in the value of a line only.
* `Call.text_eq` — the text of a call is the text of its sections.
* `erases_iff` — **exactly when a node is deleted without any other.**
-/

namespace BkPlatform.Mysql

open LinePattern Sections

/-! ### What is written -/

/-- `appendNodeToFile`: what is appended, which is nothing for any other type. -/
def appendNodeToFile (nodetype hostname : String) (id : ℤ) : String :=
  if nodetype = "sql" then sqlToString hostname id
  else if nodetype = "data" then dataToString hostname id
  else if nodetype = "management" then mgmToString hostname id
  else ""

/-- A call of `appendNodeToFile`. -/
structure Call where
  nodetype : String
  hostname : Address
  id : ℤ
  deriving DecidableEq, Repr

/-- The section `config.ini` begins with. -/
def ndbdDefault : String :=
  "[ndbd default]\nNoOfReplicas = 2\nDataDir= /var/lib/mysql-ndb-data\nDataMemory = 1G\n" ++
    "IndexMemory = 512M\nServerPort=40000\n\n"

/-- What a call appends. -/
def Call.text (c : Call) : List Char := (appendNodeToFile c.nodetype c.hostname.dotted c.id).toList

/-- The file after some calls. -/
def configFile (calls : List Call) : List Char := ndbdDefault.toList ++ calls.flatMap Call.text

/-- The classes of characters an address stands for as an expression. -/
def addressClasses (hostname : String) : List (Char → Bool) :=
  hostname.toList.map fun d => if d = '.' then notNewline else fun c => c == d

/-- `re.match(".*"+hostname, line) != None`, for a hostname of digits and dots. -/
def mentions (hostname : String) (line : List Char) : Bool :=
  (capture (.run 0 notNewline :: (addressClasses hostname).map .one) line).isSome

/-! ### Addresses -/

theorem toList_dotted (ip : Address) : ip.dotted.toList =
    Nat.toDigits 10 ip.a ++ '.' :: (Nat.toDigits 10 ip.b ++ '.' ::
      (Nat.toDigits 10 ip.c ++ '.' :: Nat.toDigits 10 ip.d)) := by
  have hpart : ∀ n : Fin 256, (toString n).toList = Nat.toDigits 10 n := fun _ => Nat.toList_repr
  simp [Address.dotted, hpart]

theorem isDigit_of_mem {n : ℕ} {ch : Char} (h : ch ∈ Nat.toDigits 10 n) : ch.isDigit = true :=
  Nat.isDigit_of_mem_toDigits (by decide) (by decide) h

theorem mem_dotted {ip : Address} {ch : Char} (h : ch ∈ ip.dotted.toList) :
    ch.isDigit = true ∨ ch = '.' := by
  rw [toList_dotted] at h
  simp only [List.mem_append, List.mem_cons] at h
  rcases h with h | h | h | h | h | h | h
  · exact Or.inl (isDigit_of_mem h)
  · exact Or.inr h
  · exact Or.inl (isDigit_of_mem h)
  · exact Or.inr h
  · exact Or.inl (isDigit_of_mem h)
  · exact Or.inr h
  · exact Or.inl (isDigit_of_mem h)

theorem notNewline_of_isDigit {ch : Char} (h : ch.isDigit = true) : notNewline ch = true := by
  refine bne_iff_ne.mpr ?_
  rintro rfl
  exact absurd h (by decide)

theorem notNewline_dotted (ip : Address) : ∀ ch ∈ ip.dotted.toList, notNewline ch = true := by
  intro ch h
  rcases mem_dotted h with hdigit | rfl
  · exact notNewline_of_isDigit hdigit
  · rfl

/-- An address begins with a digit, and has seven characters at least. -/
theorem dotted_begins (ip : Address) :
    ∃ x rest, ip.dotted.toList = x :: rest ∧ x.isDigit = true ∧ 6 ≤ rest.length := by
  have ha := @Nat.length_toDigits_pos 10 ip.a
  have hb := @Nat.length_toDigits_pos 10 ip.b
  have hc := @Nat.length_toDigits_pos 10 ip.c
  have hd := @Nat.length_toDigits_pos 10 ip.d
  have hlist := toList_dotted ip
  obtain ⟨x, xs, hx⟩ := List.exists_cons_of_length_pos ha
  rw [hx, List.cons_append] at hlist
  refine ⟨x, _, hlist, isDigit_of_mem (hx ▸ List.mem_cons_self), ?_⟩
  simp only [List.length_append, List.length_cons]
  omega

/-! ### Where an address is found -/

section Mentions

variable {ip : Address} {cs : List Char}

/-- The expression fits somewhere in the first line of the text. -/
def Occurs (hostname : String) (cs : List Char) : Prop :=
  ∃ before w after, cs = before ++ (w ++ after) ∧ (∀ c ∈ before, notNewline c = true) ∧
    List.Forall₂ (fun p c => p c = true) (addressClasses hostname) w

theorem mentions_iff {hostname : String} : mentions hostname cs = true ↔ Occurs hostname cs := by
  rw [mentions, capture_isSome]
  constructor
  · rintro ⟨before, rest, rfl, -, hbefore, hfits⟩
    obtain ⟨w, after, rfl, hw⟩ := fits_map_one.mp hfits
    exact ⟨before, w, after, rfl, hbefore, hw⟩
  · rintro ⟨before, w, after, rfl, hbefore, hw⟩
    exact ⟨before, w ++ after, rfl, Nat.zero_le _, hbefore, fits_map_one.mpr ⟨w, after, rfl, hw⟩⟩

/-- What the expression fits begins with a digit, has seven characters at least, and is part of
a line. -/
theorem fitted {w : List Char}
    (hw : List.Forall₂ (fun p c => p c = true) (addressClasses ip.dotted) w) :
    ∃ x rest, w = x :: rest ∧ x.isDigit = true ∧ 6 ≤ rest.length ∧
      ∀ c ∈ w, notNewline c = true := by
  have hline : ∀ c ∈ w, notNewline c = true := by
    refine forall_of_classes hw fun p hp c hc => ?_
    obtain ⟨d, hd, rfl⟩ := List.mem_map.mp hp
    split at hc
    · exact hc
    · rw [beq_iff_eq.mp hc]
      exact notNewline_dotted ip d hd
  obtain ⟨x, rest, hlist, hx, hlength⟩ := dotted_begins ip
  have hne : x ≠ '.' := by
    rintro rfl
    exact absurd hx (by decide)
  rw [addressClasses, hlist, List.map_cons, if_neg hne] at hw
  cases hw with
  | cons hfirst hrest =>
    refine ⟨_, _, rfl, ?_, ?_, hline⟩
    · rw [beq_iff_eq.mp hfirst]
      exact hx
    · rw [← hrest.length_eq, List.length_map]
      exact hlength

/-- A newline at the end makes no difference. -/
theorem mentions_newline : mentions ip.dotted (cs ++ ['\n']) = mentions ip.dotted cs := by
  rw [Bool.eq_iff_iff, mentions_iff, mentions_iff]
  constructor
  · rintro ⟨before, w, after, heq, hbefore, hw⟩
    obtain ⟨x, rest, -, -, -, hline⟩ := fitted hw
    rcases List.eq_nil_or_concat after with rfl | ⟨after, last, rfl⟩
    · -- the newline would be part of the line
      have hmem : '\n' ∈ before ++ w := by
        rw [List.append_nil] at heq
        rw [← heq]
        simp
      rcases List.mem_append.mp hmem with h | h
      · exact absurd (hbefore _ h) (by decide)
      · exact absurd (hline _ h) (by decide)
    · rw [List.concat_eq_append, ← List.append_assoc, ← List.append_assoc] at heq
      obtain ⟨rfl, -⟩ := List.append_inj' heq rfl
      exact ⟨before, w, after, List.append_assoc _ _ _, hbefore, hw⟩
  · rintro ⟨before, w, after, rfl, hbefore, hw⟩
    exact ⟨before, w, after ++ ['\n'], by simp, hbefore, hw⟩

/-- A text in front without digits makes no difference. -/
theorem mentions_append {a : List Char}
    (ha : ∀ c ∈ a, c.isDigit = false ∧ notNewline c = true) :
    mentions ip.dotted (a ++ cs) = mentions ip.dotted cs := by
  rw [Bool.eq_iff_iff, mentions_iff, mentions_iff]
  constructor
  · rintro ⟨before, w, after, heq, hbefore, hw⟩
    obtain ⟨x, rest, rfl, hx, -, -⟩ := fitted hw
    rcases List.append_eq_append_iff.mp heq with ⟨more, rfl, rfl⟩ | ⟨more, rfl, hmore⟩
    · exact ⟨more, _, after, rfl, fun c hc => hbefore c (List.mem_append_right _ hc), hw⟩
    · cases more with
      | nil =>
        exact ⟨[], _, after, by simpa using hmore.symm, fun c hc => absurd hc List.not_mem_nil, hw⟩
      | cons y more =>
        -- it would begin with a character that is no digit
        obtain ⟨rfl, -⟩ := List.cons.inj hmore
        exact absurd (ha x (by simp)).1 (by simp [hx])
  · rintro ⟨before, w, after, rfl, hbefore, hw⟩
    refine ⟨a ++ before, w, after, by simp, ?_, hw⟩
    intro c hc
    rcases List.mem_append.mp hc with h | h
    · exact (ha c h).2
    · exact hbefore c h

/-- A short text mentions no address. -/
theorem mentions_short (h : cs.length < 7) : mentions ip.dotted cs = false := by
  rw [← Bool.not_eq_true, mentions_iff]
  rintro ⟨before, w, after, rfl, -, hw⟩
  obtain ⟨x, rest, rfl, -, hlength, -⟩ := fitted hw
  simp only [List.length_append, List.length_cons] at h
  omega

/-- An address mentions itself. -/
theorem mentions_self (ip : Address) : mentions ip.dotted ip.dotted.toList = true := by
  rw [mentions_iff]
  refine ⟨[], ip.dotted.toList, [], by simp, fun c hc => absurd hc List.not_mem_nil, ?_⟩
  rw [addressClasses, List.forall₂_map_left_iff, List.forall₂_same]
  intro d hd
  split
  · exact notNewline_dotted ip d hd
  · exact beq_iff_eq.mpr rfl

end Mentions

/-! ### The file as sections -/

/-- What stands in front of a value begins no header, and has no digits. -/
def plainKey (key : String) : Bool :=
  key.toList.head?.any (fun c => c != '[') && key.toList.all fun c => !c.isDigit && notNewline c

/-- Such a key, and a value in the same line. -/
structure PlainEntry (e : String × List Char) : Prop where
  key : plainKey e.1 = true
  value : ∀ c ∈ e.2, notNewline c = true

theorem plainEntry {key : String} {value : List Char} (hkey : plainKey key = true)
    (hvalue : ∀ c ∈ value, notNewline c = true) : PlainEntry (key, value) := ⟨hkey, hvalue⟩

theorem plainEntry_literal {key value : String} (hkey : plainKey key = true)
    (hvalue : value.toList.all notNewline = true) : PlainEntry (key, value.toList) :=
  ⟨hkey, List.all_eq_true.mp hvalue⟩

theorem plainEntry_alone {key : String} (hkey : plainKey key = true) : PlainEntry (key, []) :=
  ⟨hkey, fun _ hc => absurd hc List.not_mem_nil⟩

/-- A header, lines that are plain, and a blank line. -/
structure ConfigSection where
  header : String
  entries : List (String × List Char)
  isHeader_header : isHeader (header.toList ++ ['\n']) = true
  notNewline_header : header.toList.all notNewline = true
  plain : ∀ e ∈ entries, PlainEntry e

/-- The line of an entry. -/
def entryLine (e : String × List Char) : List Char := e.1.toList ++ e.2 ++ ['\n']

/-- The lines of a section. -/
def ConfigSection.lines (s : ConfigSection) : List (List Char) :=
  (s.header.toList ++ ['\n']) :: (s.entries.map entryLine ++ [['\n']])

/-- The section that is numbered if the number is positive. -/
def numberEntry (id : ℤ) : List (String × List Char) :=
  if id > 0 then [("NodeId=", (toString id).toList)] else []

theorem notNewline_toString {id : ℤ} (h : id > 0) :
    ∀ c ∈ (toString id).toList, notNewline c = true := by
  obtain ⟨n, rfl⟩ := Int.eq_ofNat_of_zero_le (Int.le_of_lt h)
  have hdigits : (toString (n : ℤ)).toList = Nat.toDigits 10 n := Nat.toList_repr
  rw [hdigits]
  exact fun c hc => notNewline_of_isDigit (isDigit_of_mem hc)

theorem plain_numberEntry (id : ℤ) : ∀ e ∈ numberEntry id, PlainEntry e := by
  intro e he
  unfold numberEntry at he
  split at he
  · next h =>
    obtain rfl := List.mem_singleton.mp he
    exact plainEntry (by decide) (notNewline_toString h)
  · exact absurd he List.not_mem_nil

/-- An API slot, numbered or not. -/
def apiSlot (number : List (String × List Char)) (hnumber : ∀ e ∈ number, PlainEntry e)
    (ip : Address) : ConfigSection where
  header := "[mysqld]"
  entries := number ++ [("hostname=", ip.dotted.toList)]
  isHeader_header := by decide
  notNewline_header := by decide
  plain := by
    rw [List.forall_mem_append, List.forall_mem_singleton]
    exact ⟨hnumber, plainEntry (by decide) (notNewline_dotted ip)⟩

/-- The section of a data node. -/
def dataSection (ip : Address) (id : ℤ) : ConfigSection where
  header := "[ndbd]"
  entries := numberEntry id ++ [("hostname=", ip.dotted.toList), ("ServerPort=", "40000".toList)]
  isHeader_header := by decide
  notNewline_header := by decide
  plain := by
    rw [List.forall_mem_append, List.forall_mem_cons, List.forall_mem_singleton]
    exact ⟨plain_numberEntry id, plainEntry (by decide) (notNewline_dotted ip),
      plainEntry_literal (by decide) (by decide)⟩

/-- The section of a management node. -/
def mgmSection (ip : Address) (id : ℤ) : ConfigSection where
  header := "[ndb_mgmd]"
  entries := numberEntry id ++ [("DataDir = /var/lib/mysql-mgmd-data", []),
    ("PortNumber = ", "1186".toList), ("HostName = ", ip.dotted.toList)]
  isHeader_header := by decide
  notNewline_header := by decide
  plain := by
    rw [List.forall_mem_append, List.forall_mem_cons, List.forall_mem_cons,
      List.forall_mem_singleton]
    exact ⟨plain_numberEntry id, plainEntry_alone (by decide),
      plainEntry_literal (by decide) (by decide), plainEntry (by decide) (notNewline_dotted ip)⟩

/-- The section the file begins with. -/
def defaultSection : ConfigSection where
  header := "[ndbd default]"
  entries := [("NoOfReplicas = ", "2".toList), ("DataDir= /var/lib/mysql-ndb-data", []),
    ("DataMemory = ", "1G".toList), ("IndexMemory = ", "512M".toList),
    ("ServerPort=", "40000".toList)]
  isHeader_header := by decide
  notNewline_header := by decide
  plain := by
    simp only [List.forall_mem_cons]
    exact ⟨plainEntry_literal (by decide) (by decide), plainEntry_alone (by decide),
      plainEntry_literal (by decide) (by decide), plainEntry_literal (by decide) (by decide),
      plainEntry_literal (by decide) (by decide), fun _ he => absurd he List.not_mem_nil⟩

/-- An API slot without a number. -/
def plainSlot (ip : Address) : ConfigSection :=
  apiSlot [] (fun _ he => absurd he List.not_mem_nil) ip

/-- The sections a call appends. -/
def Call.sections (c : Call) : List ConfigSection :=
  if c.nodetype = "sql" then
    [apiSlot (numberEntry c.id) (plain_numberEntry c.id) c.hostname, plainSlot c.hostname,
      plainSlot c.hostname, plainSlot c.hostname]
  else if c.nodetype = "data" then [dataSection c.hostname c.id]
  else if c.nodetype = "management" then [mgmSection c.hostname c.id]
  else []

/-- The text of sections. -/
def sectionsText (ss : List ConfigSection) : List Char :=
  ss.flatMap fun s => s.lines.flatten

theorem flatten_apiSlot {number : List (String × List Char)}
    (h : ∀ e ∈ number, PlainEntry e) (ip : Address) :
    (apiSlot number h ip).lines.flatten =
      "[mysqld]\n".toList ++ (number.map entryLine).flatten ++
        ("hostname=".toList ++ ip.dotted.toList ++ "\n\n".toList) := by
  have hlines : (apiSlot number h ip).lines = ("[mysqld]".toList ++ ['\n']) ::
      ((number ++ [("hostname=", ip.dotted.toList)]).map entryLine ++ [['\n']]) := rfl
  rw [hlines]
  simp [entryLine]

theorem toList_apiSection (hostname : String) : (apiSection hostname).toList =
    "[mysqld]\nhostname=".toList ++ hostname.toList ++ "\n\n".toList := by
  delta apiSection
  simp only [String.toList_append]

theorem flatten_unnumbered (ip : Address) (h : ∀ e ∈ [], PlainEntry e) :
    (apiSlot [] h ip).lines.flatten = (apiSection ip.dotted).toList := by
  rw [flatten_apiSlot, toList_apiSection]
  simp

theorem flatten_numbered (ip : Address) {id : ℤ}
    (h : ∀ e ∈ [("NodeId=", (toString id).toList)], PlainEntry e) :
    (apiSlot [("NodeId=", (toString id).toList)] h ip).lines.flatten =
      ("[mysqld]\nNodeId=" ++ toString id ++ "\nhostname=" ++ ip.dotted ++ "\n\n").toList := by
  rw [flatten_apiSlot]
  simp [entryLine]

theorem flatten_firstSlot (ip : Address) (id : ℤ) :
    (apiSlot (numberEntry id) (plain_numberEntry id) ip).lines.flatten ++
        ((apiSection ip.dotted).toList ++
          ((apiSection ip.dotted).toList ++ (apiSection ip.dotted).toList)) =
      (sqlToString ip.dotted id).toList := by
  have hplain := plain_numberEntry id
  revert hplain
  unfold numberEntry sqlToString
  split
  · intro hplain
    rw [flatten_numbered]
    simp only [String.toList_append, List.append_assoc]
  · intro hplain
    rw [flatten_unnumbered]
    simp only [String.toList_append, List.append_assoc]

/-- The text of a call is the text of its sections. -/
theorem Call.text_eq (c : Call) : c.text = sectionsText c.sections := by
  unfold Call.text appendNodeToFile Call.sections sectionsText
  split
  · rw [List.flatMap_cons, List.flatMap_cons, List.flatMap_cons, List.flatMap_singleton,
      plainSlot, flatten_unnumbered, flatten_firstSlot]
  · split
    · by_cases h : c.id > 0
      · simp [dataToString, ConfigSection.lines, dataSection, entryLine, numberEntry, h]
      · simp [dataToString, ConfigSection.lines, dataSection, entryLine, numberEntry, h]
    · split
      · by_cases h : c.id > 0
        · simp [mgmToString, ConfigSection.lines, mgmSection, entryLine, numberEntry, h]
        · simp [mgmToString, ConfigSection.lines, mgmSection, entryLine, numberEntry, h]
      · rfl

theorem ndbdDefault_eq : ndbdDefault.toList = defaultSection.lines.flatten := by
  delta ndbdDefault
  simp [ConfigSection.lines, defaultSection, entryLine]

/-- The file is the text of its sections. -/
theorem configFile_eq (calls : List Call) :
    configFile calls = sectionsText (defaultSection :: calls.flatMap Call.sections) := by
  have hcalls : calls.flatMap Call.text = sectionsText (calls.flatMap Call.sections) := by
    rw [sectionsText, List.flatMap_assoc]
    exact congrArg (calls.flatMap ·) (funext Call.text_eq)
  rw [configFile, hcalls, ndbdDefault_eq]
  rfl

/-! ### The sections that mention an address -/

/-- No line behind the header of a section is a header. -/
theorem isHeader_of_head {cs : List Char} (h : ∀ c ∈ cs.head?, c ≠ '[') : isHeader cs = false := by
  cases cs with
  | nil => rfl
  | cons c cs =>
    have hc : (c == '[') = false := beq_eq_false_iff_ne.mpr (h c rfl)
    simp [isHeader, capture, hc]

theorem isHeader_entryLine {e : String × List Char} (h : PlainEntry e) :
    isHeader (entryLine e) = false := by
  obtain ⟨hkey, -⟩ := h
  simp only [plainKey, Bool.and_eq_true] at hkey
  refine isHeader_of_head fun c hc => ?_
  cases hlist : e.1.toList with
  | nil => simp [hlist] at hkey
  | cons d ds =>
    obtain rfl : d = c := by simpa [entryLine, hlist] using hc
    simpa [hlist] using hkey.1

/-- An address is found in the value of a line only. -/
theorem mentions_entryLine {ip : Address} {e : String × List Char} (h : PlainEntry e) :
    mentions ip.dotted (entryLine e) = mentions ip.dotted e.2 := by
  obtain ⟨hkey, -⟩ := h
  simp only [plainKey, Bool.and_eq_true, List.all_eq_true, Bool.not_eq_true'] at hkey
  rw [entryLine, mentions_newline, mentions_append hkey.2]

variable (s : ConfigSection)

theorem ConfigSection.isSection : IsSection isHeader s.lines := by
  intro line hline
  rcases List.mem_append.mp hline with h | h
  · obtain ⟨e, he, rfl⟩ := List.mem_map.mp h
    exact isHeader_entryLine (s.plain e he)
  · rw [List.mem_singleton.mp h]
    rfl

/-- A section is struck if one of its values mentions the address. -/
theorem ConfigSection.struck_lines (ip : Address) :
    struck isHeader (mentions ip.dotted) s.lines =
      s.entries.any fun e => mentions ip.dotted e.2 := by
  have hblank : mentions ip.dotted ['\n'] = false := mentions_short (by decide)
  rw [Bool.eq_iff_iff]
  simp only [struck, ConfigSection.lines, List.any_cons, List.any_append, List.any_nil,
    s.isHeader_header, hblank, List.any_eq_true, List.mem_map, Bool.or_eq_true, Bool.and_eq_true,
    Bool.not_eq_true', Bool.not_true, Bool.false_and, Bool.and_false, Bool.or_false,
    Bool.false_eq_true, false_or]
  constructor
  · rintro ⟨_, ⟨e, he, rfl⟩, -, h⟩
    rw [mentions_entryLine (s.plain e he)] at h
    exact ⟨e, he, h⟩
  · rintro ⟨e, he, h⟩
    refine ⟨_, ⟨e, he, rfl⟩, isHeader_entryLine (s.plain e he), ?_⟩
    rw [mentions_entryLine (s.plain e he)]
    exact h

/-- A line with its newline is read by itself. -/
theorem readlines_cons {body : List Char} (hbody : ∀ c ∈ body, notNewline c = true)
    (text : List Char) :
    readlines (body ++ ['\n'] ++ text) = (body ++ ['\n']) :: readlines text := by
  have hline : readlines (body ++ ['\n']) = [body ++ ['\n']] := by
    refine List.splitBy_of_isChain (by simp) ?_
    refine List.isChain_iff_getElem.mpr fun i hi => ?_
    have hi' : i < body.length := by simpa using hi
    rw [List.getElem_append_left hi']
    exact hbody _ (List.getElem_mem hi')
  have hsplit : readlines (body ++ ['\n'] ++ text) = readlines (body ++ ['\n']) ++ readlines text :=
    List.splitBy_append fun c hc _ _ => by
      obtain rfl : '\n' = c := by simpa using hc
      rfl
  rw [hsplit, hline]
  rfl

theorem ConfigSection.line_of_mem {l : List Char} (hl : l ∈ s.lines) :
    ∃ body, l = body ++ ['\n'] ∧ ∀ c ∈ body, notNewline c = true := by
  rcases List.mem_cons.mp hl with rfl | hl
  · exact ⟨_, rfl, List.all_eq_true.mp s.notNewline_header⟩
  · rcases List.mem_append.mp hl with hl | hl
    · obtain ⟨e, he, rfl⟩ := List.mem_map.mp hl
      obtain ⟨hkey, hvalue⟩ := s.plain e he
      simp only [plainKey, Bool.and_eq_true, List.all_eq_true] at hkey
      refine ⟨e.1.toList ++ e.2, rfl, List.forall_mem_append.mpr ⟨fun c hc => ?_, hvalue⟩⟩
      exact (hkey.2 c hc).2
    · exact ⟨[], List.mem_singleton.mp hl, fun c hc => absurd hc List.not_mem_nil⟩

theorem sectionsText_eq (ss : List ConfigSection) :
    sectionsText ss = (ss.map ConfigSection.lines).flatten.flatten := by
  rw [sectionsText, List.flatten_flatten, List.map_map, List.flatMap_def]
  rfl

/-- The lines that are read are the lines of the sections. -/
theorem readlines_sectionsText (ss : List ConfigSection) :
    readlines (sectionsText ss) = (ss.map ConfigSection.lines).flatten := by
  have hlines : ∀ ls : List (List Char), (∀ l ∈ ls, ∃ body, l = body ++ ['\n'] ∧
      ∀ c ∈ body, notNewline c = true) → readlines ls.flatten = ls := by
    intro ls hls
    induction ls with
    | nil => rfl
    | cons l ls ih =>
      rw [List.forall_mem_cons] at hls
      obtain ⟨⟨body, rfl, hbody⟩, hrest⟩ := hls
      rw [List.flatten_cons, readlines_cons hbody, ih hrest]
  rw [sectionsText_eq]
  refine hlines _ fun l hl => ?_
  obtain ⟨_, hs, hl⟩ := List.mem_flatten.mp hl
  obtain ⟨s, -, rfl⟩ := List.mem_map.mp hs
  exact s.line_of_mem hl

/-! ### What is deleted -/

/-- One of the values of the section mentions the address. -/
def ConfigSection.mentioned (s : ConfigSection) (ip : Address) : Bool :=
  s.entries.any fun e => mentions ip.dotted e.2

/-- What is left of the file are the sections without the address. -/
theorem deleteNodeFromFile_sectionsText (ss : List ConfigSection) (ip : Address) :
    deleteNodeFromFile (mentions ip.dotted) (sectionsText ss) =
      sectionsText (ss.filter fun s => !s.mentioned ip) := by
  have hsections : ∀ b ∈ ss.map ConfigSection.lines, IsSection isHeader b := by
    rw [List.forall_mem_map]
    exact fun s _ => s.isSection
  have hheads : ∀ b ∈ ss.map ConfigSection.lines, ∃ a ∈ b.head?, isHeader a = true := by
    rw [List.forall_mem_map]
    exact fun s _ => ⟨_, rfl, s.isHeader_header⟩
  rw [deleteNodeFromFile, deleteLoop_eq_unstruck, readlines_sectionsText,
    unstruck_flatten hsections hheads, List.filter_map, sectionsText_eq]
  have hsame : (fun b => !struck isHeader (mentions ip.dotted) b) ∘ ConfigSection.lines =
      fun s => !s.mentioned ip := by
    funext s
    rw [Function.comp_apply, s.struck_lines]
    rfl
  rw [hsame]

/-- The call writes something, and what it writes mentions the address: in its own address, or
in its number. -/
structure Call.Mentions (c : Call) (ip : Address) : Prop where
  writes : c.nodetype = "sql" ∨ c.nodetype = "data" ∨ c.nodetype = "management"
  mentioned : mentions ip.dotted c.hostname.dotted.toList = true ∨
    0 < c.id ∧ mentions ip.dotted (toString c.id).toList = true

instance (c : Call) (ip : Address) : Decidable (c.Mentions ip) :=
  decidable_of_iff (_ ∧ _) ⟨fun h => ⟨h.1, h.2⟩, fun h => ⟨h.writes, h.mentioned⟩⟩

theorem mentioned_numberEntry {id : ℤ} {ip : Address} :
    ((numberEntry id).any fun e => mentions ip.dotted e.2) = true ↔
      0 < id ∧ mentions ip.dotted (toString id).toList = true := by
  unfold numberEntry
  split
  · next h => simp [h]
  · next h => simp [h]

section Sections

variable {host ip : Address} {id : ℤ}

theorem mentioned_apiSlot {number : List (String × List Char)}
    (hnumber : ∀ e ∈ number, PlainEntry e) : (apiSlot number hnumber host).mentioned ip =
      ((number.any fun e => mentions ip.dotted e.2) || mentions ip.dotted host.dotted.toList) := by
  simp [ConfigSection.mentioned, apiSlot]

theorem mentioned_plainSlot :
    (plainSlot host).mentioned ip = mentions ip.dotted host.dotted.toList := by
  rw [plainSlot, mentioned_apiSlot, List.any_nil, Bool.false_or]

theorem mentioned_dataSection : (dataSection host id).mentioned ip =
    (((numberEntry id).any fun e => mentions ip.dotted e.2) ||
      mentions ip.dotted host.dotted.toList) := by
  have hport : mentions ip.dotted "40000".toList = false := mentions_short (by decide)
  simp only [ConfigSection.mentioned, dataSection, List.any_append, List.any_cons, List.any_nil,
    hport, Bool.or_false]

theorem mentioned_mgmSection : (mgmSection host id).mentioned ip =
    (((numberEntry id).any fun e => mentions ip.dotted e.2) ||
      mentions ip.dotted host.dotted.toList) := by
  have hdir : mentions ip.dotted [] = false := mentions_short (by decide)
  have hport : mentions ip.dotted "1186".toList = false := mentions_short (by decide)
  simp only [ConfigSection.mentioned, mgmSection, List.any_append, List.any_cons, List.any_nil,
    hdir, hport, Bool.or_false, Bool.false_or]

theorem mentioned_defaultSection : defaultSection.mentioned ip = false := by
  have hshort : ∀ e ∈ defaultSection.entries, e.2.length < 7 := by decide
  rw [ConfigSection.mentioned, List.any_eq_false]
  intro e he
  rw [mentions_short (hshort e he)]
  exact Bool.false_ne_true

end Sections

/-- One of the sections of a call mentions the address exactly if the call does. -/
theorem Call.exists_mentioned {c : Call} {ip : Address} :
    (∃ s ∈ c.sections, s.mentioned ip = true) ↔ c.Mentions ip := by
  have hnumbered : (((numberEntry c.id).any fun e => mentions ip.dotted e.2) ||
      mentions ip.dotted c.hostname.dotted.toList) = true ↔
      mentions ip.dotted c.hostname.dotted.toList = true ∨
        0 < c.id ∧ mentions ip.dotted (toString c.id).toList = true := by
    rw [Bool.or_eq_true, mentioned_numberEntry, or_comm]
  have hwrites : c.Mentions ip ↔
      (c.nodetype = "sql" ∨ c.nodetype = "data" ∨ c.nodetype = "management") ∧
        (mentions ip.dotted c.hostname.dotted.toList = true ∨
          0 < c.id ∧ mentions ip.dotted (toString c.id).toList = true) :=
    ⟨fun h => ⟨h.writes, h.mentioned⟩, fun h => ⟨h.1, h.2⟩⟩
  rw [hwrites, ← hnumbered]
  unfold Call.sections
  split
  · next hsql =>
    rw [hsql, eq_self_iff_true, true_or, true_and]
    constructor
    · rintro ⟨s, hs, h⟩
      rcases List.mem_cons.mp hs with rfl | hs
      · rwa [mentioned_apiSlot] at h
      · -- a slot without a number mentions its address only
        obtain rfl : s = plainSlot c.hostname := by simpa using hs
        rw [mentioned_plainSlot] at h
        rw [h, Bool.or_true]
    · intro h
      exact ⟨_, List.mem_cons_self, by rwa [mentioned_apiSlot]⟩
  · next hsql =>
    split
    · next hdata =>
      simp [mentioned_dataSection, hdata]
    · next hdata =>
      split
      · next hmgm => simp [mentioned_mgmSection, hmgm]
      · next hmgm => simp [hsql, hdata, hmgm]

/-- Every section of a call for an address mentions it. -/
theorem Call.mentioned_of_hostname {c : Call} {s : ConfigSection} (hs : s ∈ c.sections) :
    s.mentioned c.hostname = true := by
  have hself := mentions_self c.hostname
  unfold Call.sections at hs
  split at hs
  · simp only [List.mem_cons, List.not_mem_nil, or_false] at hs
    rcases hs with rfl | rfl | rfl | rfl
    · rw [mentioned_apiSlot, hself, Bool.or_true]
    · rw [mentioned_plainSlot, hself]
    · rw [mentioned_plainSlot, hself]
    · rw [mentioned_plainSlot, hself]
  · split at hs
    · obtain rfl := List.mem_singleton.mp hs
      simp [mentioned_dataSection, hself]
    · split at hs
      · obtain rfl := List.mem_singleton.mp hs
        simp [mentioned_mgmSection, hself]
      · exact absurd hs List.not_mem_nil

/-! ### Deleting one node -/

/-- What is left of a call. -/
def Call.left (c : Call) (ip : Address) : List Char :=
  sectionsText (c.sections.filter fun s => !s.mentioned ip)

theorem deleteNodeFromFile_configFile (calls : List Call) (ip : Address) :
    deleteNodeFromFile (mentions ip.dotted) (configFile calls) =
      ndbdDefault.toList ++ calls.flatMap fun c => c.left ip := by
  rw [configFile_eq, deleteNodeFromFile_sectionsText, List.filter_cons_of_pos
    (by simp [mentioned_defaultSection]), List.filter_flatMap, ndbdDefault_eq]
  simp only [sectionsText, List.flatMap_cons, List.flatMap_assoc]
  rfl

theorem length_flatMap_le {α β : Type*} {f g : α → List β} {l : List α}
    (hle : ∀ a ∈ l, (f a).length ≤ (g a).length) :
    (l.flatMap f).length ≤ (l.flatMap g).length := by
  induction l with
  | nil => exact Nat.le_refl _
  | cons a l ih =>
    rw [List.forall_mem_cons] at hle
    rw [List.flatMap_cons, List.flatMap_cons, List.length_append, List.length_append]
    exact Nat.add_le_add hle.1 (ih hle.2)

/-- A shorter piece for every element makes the same text only if it is the same piece. -/
theorem flatMap_eq_iff {α β : Type*} {f g : α → List β} {l : List α}
    (hle : ∀ a ∈ l, (f a).length ≤ (g a).length) :
    l.flatMap f = l.flatMap g ↔ ∀ a ∈ l, f a = g a := by
  induction l with
  | nil => simp
  | cons a l ih =>
    rw [List.forall_mem_cons] at hle
    rw [List.flatMap_cons, List.flatMap_cons, List.forall_mem_cons, ← ih hle.2]
    refine ⟨fun h => ?_, fun h => by rw [h.1, h.2]⟩
    have hlengths := congrArg List.length h
    have hrest := length_flatMap_le hle.2
    rw [List.length_append, List.length_append] at hlengths
    exact List.append_inj h (by omega)

/-- Leaving out elements is making nothing of them. -/
theorem flatMap_filter {α β : Type*} (p : α → Bool) (f : α → List β) (l : List α) :
    (l.filter p).flatMap f = l.flatMap fun a => if p a then f a else [] := by
  induction l with
  | nil => rfl
  | cons a l ih =>
    rw [List.flatMap_cons, ← ih, List.filter_cons]
    cases p a
    · rfl
    · rfl

/-- Nothing is deleted of a call exactly if it does not mention the address. -/
theorem Call.left_eq_text_iff {c : Call} {ip : Address} : c.left ip = c.text ↔ ¬ c.Mentions ip := by
  have hlines : ∀ s : ConfigSection, s.lines.flatten ≠ [] := by
    intro s
    simp [ConfigSection.lines]
  rw [Call.text_eq, ← Call.exists_mentioned, Call.left, sectionsText, sectionsText, flatMap_filter,
    flatMap_eq_iff fun s _ => by split <;> simp]
  simp only [not_exists, not_and, Bool.not_eq_true]
  refine forall_congr' fun s => forall_congr' fun _ => ?_
  cases s.mentioned ip
  · simp
  · simpa using (hlines s).symm

theorem Call.left_eq_nil (c : Call) : c.left c.hostname = [] := by
  have hnone : (c.sections.filter fun s => !s.mentioned c.hostname) = [] := by
    rw [List.filter_eq_nil_iff]
    intro s hs
    rw [Call.mentioned_of_hostname hs]
    exact Bool.false_ne_true
  rw [Call.left, hnone]
  rfl

/-- **Exactly when a node is deleted without any other**: the file after the deletion is the
file without the calls for the address if and only if no call for another address writes
anything in which the address, its dots standing for any character, is found. -/
theorem erases_iff (calls : List Call) (ip : Address) :
    deleteNodeFromFile (mentions ip.dotted) (configFile calls) =
        configFile (calls.filter fun c => c.hostname ≠ ip) ↔
      ∀ c ∈ calls, c.hostname ≠ ip → ¬ c.Mentions ip := by
  have hshorter : ∀ c ∈ calls, (c.left ip).length ≤
      (if decide (c.hostname ≠ ip) then c.text else []).length := by
    intro c _
    by_cases h : c.hostname = ip
    · rw [← h, Call.left_eq_nil]
      exact Nat.zero_le _
    · rw [if_pos (by simpa using h), Call.text_eq, Call.left, sectionsText, sectionsText,
        flatMap_filter]
      exact length_flatMap_le fun s _ => by split <;> simp
  rw [deleteNodeFromFile_configFile, configFile, List.append_cancel_left_eq, flatMap_filter,
    flatMap_eq_iff hshorter]
  refine forall_congr' fun c => forall_congr' fun _ => ?_
  by_cases h : c.hostname = ip
  · rw [← h, Call.left_eq_nil]
    simp
  · rw [if_pos (by simpa using h), Call.left_eq_text_iff]
    exact ⟨fun hnot _ => hnot, fun hall => hall h⟩

/-- `10.0.0.1` and `10.0.0.10`. -/
def firstHost : Address := ⟨⟨10, by decide⟩, ⟨0, by decide⟩, ⟨0, by decide⟩, ⟨1, by decide⟩⟩
def tenthHost : Address := ⟨⟨10, by decide⟩, ⟨0, by decide⟩, ⟨0, by decide⟩, ⟨10, by decide⟩⟩

/-- Two data nodes. -/
def firstNode : Call := ⟨"data", firstHost, 3⟩
def tenthNode : Call := ⟨"data", tenthHost, 4⟩

/-- When the first is to be deleted, the second is deleted along with it. -/
theorem erases_both :
    deleteNodeFromFile (mentions firstHost.dotted) (configFile [firstNode, tenthNode]) ≠
      configFile ([firstNode, tenthNode].filter fun c => c.hostname ≠ firstHost) := by
  intro h
  have hfirst : firstNode.left firstHost = [] := firstNode.left_eq_nil
  have hfilter : [firstNode, tenthNode].filter (fun c => c.hostname ≠ firstHost) = [tenthNode] := by
    decide
  rw [deleteNodeFromFile_configFile, configFile, List.append_cancel_left_eq, hfilter,
    List.flatMap_cons, hfirst, List.flatMap_singleton, List.flatMap_singleton] at h
  exact Call.left_eq_text_iff.mp h ⟨Or.inr (Or.inl rfl), Or.inl (by decide)⟩

end BkPlatform.Mysql
