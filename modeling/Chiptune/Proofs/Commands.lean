/-
  Which command a line means.

  A line asks for a command when it is the command's words, or goes on behind them with a
  space.  Of the commands that it asks for it means the one with the longest words, and of
  several with these words the one that was entered first.  The registry finds it by looking
  through its entries, which stand in the order of their lengths, and those of one length in the
  order in which they were entered.
-/
import Chiptune.Console.Command

set_option autoImplicit false

namespace Chiptune.Console

namespace Registry

variable {H : Type}

/-! ## What a line asks for -/

/-- A line asks for words when it is these or goes on with a space, and has a rest behind them. -/
inductive Asks (words : String) : (line rest : String) → Prop
  | bare : Asks words words ""
  | followed (more : String) : Asks words (words ++ (" " ++ more)) (" " ++ more)

variable {words words' line rest rest' argument : String}

theorem Asks.line_eq (h : Asks words line rest) : line = words ++ rest := by
  cases h with
  | bare => exact String.append_empty.symm
  | followed more => rfl

theorem Asks.isPrefix (h : Asks words line rest) : words.toList <+: line.toList :=
  ⟨rest.toList, by rw [h.line_eq, String.toList_append]⟩

/-- What a line has behind words is told by the line and the words. -/
theorem Asks.rest_unique (h : Asks words line rest) (h' : Asks words line rest') : rest = rest' :=
  (String.append_right_inj words).1 (h.line_eq.symm.trans h'.line_eq)

/-- Words that other words of their length begin with are these. -/
theorem eq_of_isPrefix (h : words.toList <+: words'.toList)
    (hsize : words.utf8ByteSize = words'.utf8ByteSize) : words = words' := by
  obtain ⟨tail, htail⟩ := h
  have hparts : words' = words ++ String.ofList tail :=
    String.toList_inj.1 (by rw [String.toList_append, String.toList_ofList, htail])
  rw [hparts, String.utf8ByteSize_append] at hsize
  have hnone := String.utf8ByteSize_eq_zero_iff.1 (Nat.add_eq_left.1 hsize.symm)
  rw [hparts, hnone, String.append_empty]

/-- A line does not ask for two words of one length. -/
theorem Asks.words_unique (h : Asks words line rest) (h' : Asks words' line rest')
    (hsize : words.utf8ByteSize = words'.utf8ByteSize) : words = words' := by
  rcases List.prefix_or_prefix_of_prefix h.isPrefix h'.isPrefix with hprefix | hprefix
  · exact eq_of_isPrefix hprefix hsize
  · exact (eq_of_isPrefix hprefix hsize.symm).symm

theorem toList_followed (words more : String) :
    (words ++ (" " ++ more)).toList = words.toList ++ ' ' :: more.toList := by
  simp [String.toList_append]

/-- A command is given what is behind its words, without the blanks at both ends. -/
theorem Asks.argument?_eq (h : Asks words line rest) :
    argument? words line = some (Text.trim rest) := by
  unfold argument?
  cases h with
  | bare =>
    rw [if_pos rfl]
    exact congrArg some (by decide +kernel)
  | followed more =>
    have hne : words ++ (" " ++ more) ≠ words := by
      intro heq
      have hlonger := congrArg List.length (toList_followed words more)
      rw [heq, List.length_append, List.length_cons] at hlonger
      omega
    have hprefix : words.toList ++ [' '] <+: words.toList ++ ' ' :: more.toList :=
      (List.prefix_append_right_inj _).2 ⟨more.toList, rfl⟩
    have hrest : String.ofList (' ' :: more.toList) = " " ++ more := by
      rw [← String.toList_inj, String.toList_ofList, String.toList_append]
      rfl
    rw [if_neg hne, toList_followed, if_pos (List.isPrefixOf_iff_prefix.2 hprefix),
      List.drop_left, hrest]

/-- Nothing is given to a command that a line does not ask for. -/
theorem exists_asks (h : argument? words line ≠ none) : ∃ rest, Asks words line rest := by
  unfold argument? at h
  split at h
  · rename_i hsame
    exact ⟨"", hsame ▸ .bare⟩
  · split at h
    · rename_i hprefix
      obtain ⟨more, hmore⟩ := List.isPrefixOf_iff_prefix.1 hprefix
      have hline : line = words ++ (" " ++ String.ofList more) := by
        rw [← String.toList_inj, toList_followed, String.toList_ofList, ← hmore, List.append_assoc]
        rfl
      rw [hline]
      exact ⟨_, .followed _⟩
    · exact absurd rfl h

theorem argument?_eq_none_iff :
    argument? words line = none ↔ ∀ rest, ¬ Asks words line rest := by
  refine ⟨fun hnone rest hasks => ?_, fun hnot => Classical.byContradiction fun hsome => ?_⟩
  · rw [hasks.argument?_eq] at hnone
    cases hnone
  · obtain ⟨rest, hasks⟩ := exists_asks hsome
    exact hnot rest hasks

/-! ## The order of the entries -/

/-- Whether an entry has words that are no shorter than those of another one. -/
def noShorter (entry other : String × H) : Bool :=
  other.1.utf8ByteSize ≤ entry.1.utf8ByteSize

/-- The entries with words of one length, in their order. -/
def ofSize (size : Nat) (entries : List (String × H)) : List (String × H) :=
  entries.filter (·.1.utf8ByteSize == size)

/-- No entry stands before one with longer words. -/
def LongestFirst (entries : List (String × H)) : Prop :=
  entries.Pairwise fun entry later => later.1.utf8ByteSize ≤ entry.1.utf8ByteSize

/-- The entries are commands in the order of their lengths, and those of one length stand as they
do among the commands. -/
structure Arranges (commands entries : List (String × H)) : Prop where
  perm : entries.Perm commands
  ordered : LongestFirst entries
  stable : ∀ size, ofSize size entries = ofSize size commands

variable {commands commands' entries entries' : List (String × H)} {entry : String × H}

theorem ofSize_cons_of_eq {size : Nat} (h : entry.1.utf8ByteSize = size) :
    ofSize size (entry :: entries) = entry :: ofSize size entries := by
  simp [ofSize, h]

theorem ofSize_cons_of_ne {size : Nat} (h : entry.1.utf8ByteSize ≠ size) :
    ofSize size (entry :: entries) = ofSize size entries := by
  simp [ofSize, h]

theorem ofSize_append (size : Nat) (entries entries' : List (String × H)) :
    ofSize size (entries ++ entries') = ofSize size entries ++ ofSize size entries' :=
  List.filter_append ..

theorem mem_ofSize (h : entry ∈ entries) : entry ∈ ofSize entry.1.utf8ByteSize entries :=
  List.mem_filter.2 ⟨h, beq_self_eq_true _⟩

theorem place_perm (entry : String × H) (entries : List (String × H)) :
    (place entry entries).Perm (entries ++ [entry]) := by
  induction entries with
  | nil => exact .refl _
  | cons other others ih =>
    rw [place]
    split
    · exact (List.perm_append_singleton entry (other :: others)).symm
    · exact ih.cons other

theorem longestFirst_place (entry : String × H) (h : LongestFirst entries) :
    LongestFirst (place entry entries) := by
  induction entries with
  | nil => exact List.pairwise_singleton _ _
  | cons other others ih =>
    obtain ⟨hother, hothers⟩ := List.pairwise_cons.1 h
    rw [place]
    split
    · rename_i hlonger
      refine .cons (List.forall_mem_cons.2 ⟨Nat.le_of_lt hlonger, fun later hmem => ?_⟩) h
      exact Nat.le_trans (hother later hmem) (Nat.le_of_lt hlonger)
    · rename_i hlonger
      refine .cons (fun later hmem => ?_) (ih hothers)
      rcases List.mem_append.1 ((place_perm entry others).mem_iff.1 hmem) with hmem | hmem
      · exact hother later hmem
      · rw [List.mem_singleton.1 hmem]
        exact Nat.le_of_not_lt hlonger

/-- An entry comes behind those that are as long. -/
theorem ofSize_place (size : Nat) (entry : String × H)
    (h : LongestFirst entries) :
    ofSize size (place entry entries) = ofSize size (entries ++ [entry]) := by
  induction entries with
  | nil => rfl
  | cons other others ih =>
    obtain ⟨hother, hothers⟩ := List.pairwise_cons.1 h
    rw [place]
    split
    · -- all that follow are shorter, so that none of them has this length together with the entry
      rename_i hlonger
      have hshorter : ∀ later ∈ other :: others,
          later.1.utf8ByteSize < entry.1.utf8ByteSize :=
        List.forall_mem_cons.2 ⟨hlonger, fun later hmem =>
          Nat.lt_of_le_of_lt (hother later hmem) hlonger⟩
      rw [ofSize_append]
      by_cases hsize : entry.1.utf8ByteSize = size
      · have hnone : ofSize size (other :: others) = [] :=
          List.filter_eq_nil_iff.2 fun later hmem heq =>
            Nat.ne_of_lt (hshorter later hmem) ((beq_iff_eq.1 heq).trans hsize.symm)
        rw [ofSize_cons_of_eq hsize, ofSize_cons_of_eq hsize, hnone]
        rfl
      · rw [ofSize_cons_of_ne hsize, ofSize_cons_of_ne hsize]
        exact (List.append_nil _).symm
    · rw [List.cons_append]
      by_cases hsize : other.1.utf8ByteSize = size
      · rw [ofSize_cons_of_eq hsize, ofSize_cons_of_eq hsize, ih hothers]
      · rw [ofSize_cons_of_ne hsize, ofSize_cons_of_ne hsize, ih hothers]

theorem Arranges.place (h : Arranges commands entries) (entry : String × H) :
    Arranges (commands ++ [entry]) (place entry entries) where
  perm := (place_perm entry entries).trans (h.perm.append_right [entry])
  ordered := longestFirst_place entry h.ordered
  stable := by
    intro size
    rw [ofSize_place size entry h.ordered, ofSize_append, ofSize_append, h.stable size]

/-- The entries of a registry are the commands that were entered. -/
theorem arranges_registerAll (commands : List (String × H)) :
    Arranges commands ((empty : Registry H).registerAll commands).entries := by
  have hrun : ∀ (before : List (String × H)) (registry : Registry H),
      Arranges before registry.entries →
      Arranges (before ++ commands) (registry.registerAll commands).entries := by
    induction commands with
    | nil =>
      intro before registry h
      rw [List.append_nil]
      exact h
    | cons entry commands ih =>
      intro before registry h
      rw [← List.singleton_append, ← List.append_assoc]
      exact ih _ (registry.register entry.1 entry.2) (h.place entry)
  exact hrun [] empty ⟨.refl _, .nil, fun _ => rfl⟩

theorem mem_of_ofSize (hsame : ∀ size, ofSize size entries = ofSize size entries')
    (h : entry ∈ entries) : entry ∈ entries' :=
  (List.mem_filter.1 (hsame entry.1.utf8ByteSize ▸ mem_ofSize h)).1

/-- The first of several entries in the order of their lengths is as long as any. -/
theorem size_le_head {first : String × H}
    (h : LongestFirst (first :: entries)) (hmem : entry ∈ first :: entries) :
    entry.1.utf8ByteSize ≤ first.1.utf8ByteSize := by
  rcases List.mem_cons.1 hmem with rfl | hmem
  · exact Nat.le_refl _
  · exact (List.pairwise_cons.1 h).1 entry hmem

/-- Entries in the order of their lengths are told by those of each length. -/
theorem eq_of_ofSize (h : LongestFirst entries) (h' : LongestFirst entries')
    (hsame : ∀ size, ofSize size entries = ofSize size entries') : entries = entries' := by
  induction entries generalizing entries' with
  | nil =>
    cases entries' with
    | nil => rfl
    | cons first' others' =>
      cases mem_of_ofSize (fun size => (hsame size).symm) List.mem_cons_self
  | cons first others ih =>
    cases entries' with
    | nil => cases mem_of_ofSize hsame List.mem_cons_self
    | cons first' others' =>
      have hsize : first.1.utf8ByteSize = first'.1.utf8ByteSize :=
        Nat.le_antisymm (size_le_head h' (mem_of_ofSize hsame List.mem_cons_self))
          (size_le_head h (mem_of_ofSize (fun size => (hsame size).symm) List.mem_cons_self))
      have hfirst := hsame first.1.utf8ByteSize
      rw [ofSize_cons_of_eq rfl, ofSize_cons_of_eq hsize.symm] at hfirst
      obtain rfl := (List.cons.inj hfirst).1
      refine congrArg (first :: ·) (ih h.of_cons h'.of_cons fun size => ?_)
      have hothers := hsame size
      by_cases heq : first.1.utf8ByteSize = size
      · rw [ofSize_cons_of_eq heq, ofSize_cons_of_eq heq] at hothers
        exact (List.cons.inj hothers).2
      · rwa [ofSize_cons_of_ne heq, ofSize_cons_of_ne heq] at hothers

theorem Arranges.unique (h : Arranges commands entries) (h' : Arranges commands entries') :
    entries = entries' :=
  eq_of_ofSize h.ordered h'.ordered fun size => (h.stable size).trans (h'.stable size).symm

/-- Sorting by length keeps those of one length in their order. -/
theorem arranges_mergeSort (commands : List (String × H)) :
    Arranges commands (commands.mergeSort noShorter) := by
  have htrans : ∀ first second third : String × H, noShorter first second →
      noShorter second third → noShorter first third := fun _ _ _ h h' =>
    decide_eq_true (Nat.le_trans (of_decide_eq_true h') (of_decide_eq_true h))
  have htotal : ∀ first second : String × H, noShorter first second || noShorter second first := by
    intro first second
    simpa [noShorter] using Nat.le_total second.1.utf8ByteSize first.1.utf8ByteSize
  have hperm := List.mergeSort_perm commands noShorter
  refine ⟨hperm, ?_, fun size => ?_⟩
  · exact (List.pairwise_mergeSort htrans htotal commands).imp of_decide_eq_true
  · have hlevel : (ofSize size commands).Pairwise fun entry later => noShorter entry later := by
      refine List.pairwise_of_forall_mem_list fun entry hentry later hlater => ?_
      have hsize := beq_iff_eq.1 (List.mem_filter.1 hentry).2
      have hsize' := beq_iff_eq.1 (List.mem_filter.1 hlater).2
      exact decide_eq_true (Nat.le_of_eq (hsize'.trans hsize.symm))
    have hkept := (List.sublist_mergeSort htrans htotal hlevel List.filter_sublist).filter
      (·.1.utf8ByteSize == size)
    rw [ofSize, List.filter_filter] at hkept
    simp only [Bool.and_self] at hkept
    exact (hkept.eq_of_length (hperm.filter _).length_eq.symm).symm

/-! ## The command that is meant -/

/-- The command that a line means, and what the line has behind its words. -/
structure Means (commands : List (String × H)) (line words rest : String) (handler : H) :
    Prop where
  asks : Asks words line rest
  /-- Of the commands with these words it is the first. -/
  first : commands.lookup words = some handler
  longest : ∀ entry ∈ commands, ∀ rest, Asks entry.1 line rest →
    entry.1 = words ∨ entry.1.utf8ByteSize < words.utf8ByteSize

variable {handler handler' : H} {registry : Registry H}

theorem mem_of_lookup (h : entries.lookup words = some handler) : (words, handler) ∈ entries := by
  obtain ⟨before, after, rfl, -⟩ := List.lookup_eq_some_iff.1 h
  exact List.mem_append_right _ List.mem_cons_self

/-- A line means one command at most. -/
theorem Means.unique (h : Means commands line words rest handler)
    (h' : Means commands line words' rest' handler') :
    words = words' ∧ rest = rest' ∧ handler = handler' := by
  obtain rfl : words = words' := by
    rcases h.longest _ (mem_of_lookup h'.first) _ h'.asks with heq | hshorter
    · exact heq.symm
    · rcases h'.longest _ (mem_of_lookup h.first) _ h.asks with heq | hshorter'
      · exact heq
      · exact absurd hshorter (Nat.lt_asymm hshorter')
  exact ⟨rfl, h.asks.rest_unique h'.asks, Option.some.inj (h.first.symm.trans h'.first)⟩

/-- Words are looked up among those of their length. -/
theorem lookup_ofSize (words : String) (entries : List (String × H)) :
    (ofSize words.utf8ByteSize entries).lookup words = entries.lookup words := by
  induction entries with
  | nil => rfl
  | cons entry entries ih =>
    by_cases hsize : entry.1.utf8ByteSize = words.utf8ByteSize
    · rw [ofSize_cons_of_eq hsize, List.lookup_cons, List.lookup_cons, ih]
    · have hne : (words == entry.1) = false :=
        beq_eq_false_iff_ne.2 fun heq => hsize (congrArg String.utf8ByteSize heq.symm)
      rw [ofSize_cons_of_ne hsize, List.lookup_cons, hne, ih]

theorem Arranges.lookup_eq (h : Arranges commands entries) (words : String) :
    entries.lookup words = commands.lookup words := by
  rw [← lookup_ofSize, h.stable, lookup_ofSize]

/-- The entry that is found first is the one that is meant: those behind it are no longer, and
of its length the line asks for its words only. -/
theorem Arranges.means (h : Arranges commands registry.entries)
    (hfound : registry.find? line = some (handler, argument)) :
    ∃ words rest, Means commands line words rest handler ∧ argument = Text.trim rest := by
  obtain ⟨before, ⟨words, handler'⟩, after, hentries, hgiven, hbefore⟩ :=
    List.findSome?_eq_some_iff.1 hfound
  obtain ⟨argument', hargument, heq⟩ := Option.map_eq_some_iff.1 hgiven
  cases heq
  obtain ⟨rest, hasks⟩ := exists_asks (by rw [hargument]; exact Option.some_ne_none _)
  rw [hasks.argument?_eq] at hargument
  have hnot : ∀ entry ∈ before, ∀ rest, ¬ Asks entry.1 line rest := fun entry hmem =>
    argument?_eq_none_iff.1 (Option.map_eq_none_iff.1 (hbefore entry hmem))
  refine ⟨words, rest, ⟨hasks, ?_, ?_⟩, (Option.some.inj hargument).symm⟩
  · rw [← h.lookup_eq, List.lookup_eq_some_iff]
    refine ⟨before, after, hentries, fun entry hmem => bne_iff_ne.2 fun heq => ?_⟩
    exact hnot entry hmem rest (heq ▸ hasks)
  · intro entry hmem other hother
    have hordered := h.ordered
    rw [← h.perm.mem_iff, hentries] at hmem
    rw [hentries] at hordered
    rcases List.mem_append.1 hmem with hmem | hmem
    · exact absurd hother (hnot entry hmem other)
    · have hle := size_le_head (List.pairwise_append.1 hordered).2.1 hmem
      rcases Nat.lt_or_eq_of_le hle with hlt | hsize
      · exact .inr hlt
      · exact .inl (hother.words_unique hasks hsize)

theorem Arranges.find?_eq_none_iff (h : Arranges commands registry.entries) :
    registry.find? line = none ↔ ∀ entry ∈ commands, ∀ rest, ¬ Asks entry.1 line rest := by
  rw [find?, List.findSome?_eq_none_iff]
  simp only [Option.map_eq_none_iff, argument?_eq_none_iff, h.perm.mem_iff]

/-- The registry finds what is meant. -/
theorem Arranges.find?_eq_some_iff (h : Arranges commands registry.entries) :
    registry.find? line = some (handler, argument) ↔
      ∃ words rest, Means commands line words rest handler ∧ argument = Text.trim rest := by
  refine ⟨h.means, fun ⟨words, rest, hmeans, hargument⟩ => ?_⟩
  cases hfound : registry.find? line with
  | none =>
    exact absurd hmeans.asks (h.find?_eq_none_iff.1 hfound _ (mem_of_lookup hmeans.first) rest)
  | some found =>
    obtain ⟨words', rest', hmeans', hargument'⟩ := h.means hfound
    obtain ⟨-, hrest, hhandler⟩ := hmeans'.unique hmeans
    rw [hargument, ← hrest, ← hargument', ← hhandler]

/-! ## The order of entering -/

/-- Words that are entered once are looked up by their entry. -/
theorem lookup_eq_some_iff_mem (hnodup : (entries.map (·.1)).Nodup) :
    entries.lookup words = some handler ↔ (words, handler) ∈ entries := by
  refine ⟨mem_of_lookup, fun hmem => ?_⟩
  obtain ⟨before, after, rfl⟩ := List.append_of_mem hmem
  rw [List.map_append, List.map_cons] at hnodup
  refine List.lookup_eq_some_iff.2 ⟨before, after, rfl, fun entry hbefore => bne_iff_ne.2 ?_⟩
  exact ((List.nodup_append.1 hnodup).2.2 _ (List.mem_map_of_mem hbefore) _
    List.mem_cons_self).symm

/-- What a line means does not depend on the order of commands that have words of their own. -/
theorem means_perm (hperm : commands'.Perm commands) (hnodup : (commands.map (·.1)).Nodup) :
    Means commands' line words rest handler ↔ Means commands line words rest handler := by
  have hnodup' : (commands'.map (·.1)).Nodup := (hperm.map _).nodup_iff.2 hnodup
  have hlookup : commands'.lookup words = some handler ↔ commands.lookup words = some handler := by
    rw [lookup_eq_some_iff_mem hnodup, lookup_eq_some_iff_mem hnodup', hperm.mem_iff]
  refine ⟨fun h => ⟨h.asks, hlookup.1 h.first, fun entry hmem => ?_⟩,
    fun h => ⟨h.asks, hlookup.2 h.first, fun entry hmem => ?_⟩⟩
  · exact h.longest entry (hperm.mem_iff.2 hmem)
  · exact h.longest entry (hperm.mem_iff.1 hmem)

theorem find?_registerAll_perm (hperm : commands'.Perm commands)
    (hnodup : (commands.map (·.1)).Nodup) (line : String) :
    ((empty : Registry H).registerAll commands').find? line =
      ((empty : Registry H).registerAll commands).find? line := by
  refine Option.ext fun ⟨handler, argument⟩ => ?_
  rw [(arranges_registerAll commands').find?_eq_some_iff,
    (arranges_registerAll commands).find?_eq_some_iff]
  simp only [means_perm hperm hnodup]

/-! ## What is run -/

/-- Runs the handler of the command that a line asks for, or nothing if there is none. -/
def dispatch {State Answer : Type} (run : H → String → State → Answer × State)
    (missing : Answer) (line : String) (registry : Registry H) (state : State) : Answer × State :=
  match registry.find? line with
  | some (handler, argument) => run handler argument state
  | none => (missing, state)

/-- What is run is what is meant. -/
theorem Arranges.dispatch_cases (h : Arranges commands registry.entries) {State Answer : Type}
    (run : H → String → State → Answer × State) (missing : Answer) (line : String)
    (state : State) :
    (∃ words rest handler, Means commands line words rest handler ∧
      registry.dispatch run missing line state = run handler (Text.trim rest) state) ∨
    ((∀ entry ∈ commands, ∀ rest, ¬ Asks entry.1 line rest) ∧
      registry.dispatch run missing line state = (missing, state)) := by
  rw [dispatch]
  cases hfound : registry.find? line with
  | none => exact .inr ⟨h.find?_eq_none_iff.1 hfound, rfl⟩
  | some found =>
    obtain ⟨words, rest, hmeans, hargument⟩ := h.means hfound
    exact .inl ⟨words, rest, found.1, hmeans, by rw [← hargument]⟩

/-- What a registry does with lines. -/
structure Serves (commands : List (String × H)) (registry : Registry H) : Prop where
  /-- The commands stand in the order of their lengths, those of one length as they were
  entered. -/
  sorted : registry.entries = commands.mergeSort noShorter
  list_perm : registry.list.Perm (commands.map (·.1))
  list_ordered : registry.list.Pairwise fun words later => later.utf8ByteSize ≤ words.utf8ByteSize
  /-- It finds the command that is meant. -/
  found : ∀ line handler argument, registry.find? line = some (handler, argument) ↔
    ∃ words rest, Means commands line words rest handler ∧ argument = Text.trim rest
  /-- It finds nothing just when the line asks for none of the commands. -/
  missed : ∀ line, registry.find? line = none ↔
    ∀ entry ∈ commands, ∀ rest, ¬ Asks entry.1 line rest
  /-- The handler of the command that is meant is run, once; without one nothing is done. -/
  ran : ∀ {State Answer : Type} (run : H → String → State → Answer × State) (missing : Answer)
    (line : String) (state : State),
    (∃ words rest handler, Means commands line words rest handler ∧
      registry.dispatch run missing line state = run handler (Text.trim rest) state) ∨
    ((∀ entry ∈ commands, ∀ rest, ¬ Asks entry.1 line rest) ∧
      registry.dispatch run missing line state = (missing, state))

theorem Arranges.serves (h : Arranges commands registry.entries) : Serves commands registry where
  sorted := h.unique (arranges_mergeSort commands)
  list_perm := h.perm.map _
  list_ordered := List.pairwise_map.2 h.ordered
  found := fun _ _ _ => h.find?_eq_some_iff
  missed := fun _ => h.find?_eq_none_iff
  ran := h.dispatch_cases

/-- **A line runs the command with the longest words.**  Whatever commands are entered one after
the other, with words that begin with each other, hold spaces, are empty or are entered
again: of those that a line asks for, the one with the longest words is run with what the line has
behind them, cut free of blanks, and of several with these words the first; and when the line
asks for none, nothing is run.  The commands are listed from the longest to the shortest.  As long
as no words are entered twice, the order in which the commands are entered does not matter. -/
theorem serves_registerAll (commands : List (String × H)) :
    Serves commands ((empty : Registry H).registerAll commands) ∧
    ((commands.map (·.1)).Nodup → ∀ commands' : List (String × H), commands'.Perm commands →
      ∀ line, ((empty : Registry H).registerAll commands').find? line =
        ((empty : Registry H).registerAll commands).find? line) :=
  ⟨(arranges_registerAll commands).serves,
    fun hnodup _ hperm => find?_registerAll_perm hperm hnodup⟩

/-- Words that begin with each other, with spaces in them and without a letter. -/
def nestedWords : List (String × Nat) := [("play", 0), ("play all", 1), ("", 2), ("stop", 3)]

/-- The longest words are found whether they are entered first or last. -/
theorem serves_nestedWords :
    let registry := (empty : Registry Nat).registerAll nestedWords
    Serves nestedWords registry ∧ registry.list = ["play all", "play", "stop", ""] ∧
      registry.find? "play all  songs " = some (1, "songs") ∧
      registry.find? "play allsongs" = some (0, "allsongs") ∧
      registry.find? " stop" = some (2, "stop") ∧ registry.find? "stopped" = none ∧
      ((empty : Registry Nat).registerAll nestedWords.reverse).find? "play all  songs " =
        some (1, "songs") := by
  obtain ⟨hserves, horder⟩ := serves_registerAll nestedWords
  have hlist : ((empty : Registry Nat).registerAll nestedWords).list =
      ["play all", "play", "stop", ""] := by decide +kernel
  have hlongest : ((empty : Registry Nat).registerAll nestedWords).find? "play all  songs " =
      some (1, "songs") := by decide +kernel
  have hreversed := horder (by decide +kernel) nestedWords.reverse
    (List.reverse_perm nestedWords) "play all  songs "
  exact ⟨hserves, hlist, hlongest, by decide +kernel, by decide +kernel, by decide +kernel,
    hreversed.trans hlongest⟩

/-- Words that are entered again are those that were entered first. -/
example : ((empty : Registry Nat).registerAll [("play", 0), ("play", 1)]).find? "play theme" =
    some (0, "theme") := by decide +kernel

end Registry

namespace Player

open Registry (Asks Means)

variable {G : Type} [AudioGraph G]

theorem execute_eq_dispatch (files : Files) (line : String) (player : Player G) :
    player.execute files line = registry.dispatch (run files) (.of .notACommand) line player := by
  rw [execute, Registry.dispatch]
  cases registry.find? line with
  | none => rfl
  | some found => rfl

/-- A line that is typed runs the command that it means, with its argument, or nothing. -/
theorem execute_cases (files : Files) (line : String) (player : Player G) :
    (∃ words rest command, Means commandWords line words rest command ∧
      player.execute files line = player.run files command (Text.trim rest)) ∨
    ((∀ entry ∈ commandWords, ∀ rest, ¬ Asks entry.1 line rest) ∧
      player.execute files line = (.of .notACommand, player)) := by
  rw [execute_eq_dispatch]
  exact (Registry.arranges_registerAll commandWords).dispatch_cases (run files) _ line player

end Player

end Chiptune.Console
