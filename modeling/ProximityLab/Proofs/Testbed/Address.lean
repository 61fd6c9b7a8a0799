import ProximityLab.Proofs.Testbed.Ranks
import ProximityLab.Proofs.Text.Lines

/-!
# The addresses that are accepted

A request that names no board is accepted if the site's name occurs in it and the first address
inside it is that of a board. Neither says that the request is this address, and the site may be
found anywhere.

- **Addresses** (`NodeAddress`): no two begin at one place (`NodeAddress.eq_of_prefix`), so the
  search for the longest architecture finds the only one.
- **The first address** (`findArchi?_eq_some_iff`): the search gives its architecture.
- **Requests** (`requested_language`): the requests that are accepted, with what of them is an
  address of the site.
-/

namespace ProximityLab.Testbed

/-! ## Addresses -/

/-- The parts of an address. -/
@[ext]
structure NodeAddress where
  archi : List Char
  number : List Char
  site : List Char
  archi_ne_nil : archi ≠ []
  isArchiChar_archi : ∀ c ∈ archi, isArchiChar c = true
  number_ne_nil : number ≠ []
  isDigit_number : ∀ c ∈ number, Text.isDigit c = true
  site_ne_nil : site ≠ []
  isLower_site : ∀ c ∈ site, c.isLower = true

namespace NodeAddress

/-- What follows the architecture. -/
def ending (a : NodeAddress) : List Char := '-' :: (a.number ++ '.' :: (a.site ++ domain))

def chars (a : NodeAddress) : List Char := a.archi ++ a.ending

theorem domain_suffix (a : NodeAddress) : domain <:+ a.chars :=
  ⟨a.archi ++ '-' :: (a.number ++ '.' :: a.site), by simp [chars, ending]⟩

theorem dot_not_mem_node (a : NodeAddress) : '.' ∉ a.archi ++ '-' :: a.number := by
  rw [List.mem_append, List.mem_cons]
  rintro (h | h | h)
  · exact absurd (a.isArchiChar_archi _ h) (by decide)
  · exact absurd h (by decide)
  · exact absurd (a.isDigit_number _ h) (by decide)

theorem dash_not_mem_number (a : NodeAddress) : '-' ∉ a.number :=
  fun h => absurd (a.isDigit_number _ h) (by decide)

theorem dot_not_mem_site (a : NodeAddress) : '.' ∉ a.site :=
  fun h => absurd (a.isLower_site _ h) (by decide)

theorem domain_eq : domain = '.' :: domain.tail := by decide

theorem ending_append (a : NodeAddress) (behind : List Char) :
    a.ending ++ behind =
      '-' :: (a.number ++ '.' :: (a.site ++ '.' :: (domain.tail ++ behind))) := by
  have hdomain : domain ++ behind = '.' :: (domain.tail ++ behind) := by
    rw [← List.cons_append, ← domain_eq]
  simp only [ending, List.cons_append, List.append_assoc, hdomain]

theorem chars_append (a : NodeAddress) (behind : List Char) : a.chars ++ behind =
    (a.archi ++ '-' :: a.number) ++ '.' :: (a.site ++ '.' :: (domain.tail ++ behind)) := by
  simp only [chars, List.append_assoc, ending_append, List.cons_append]

/-- Dots and dashes part an address in one way, although architectures have dashes in them. -/
theorem eq_of_prefix {a a' : NodeAddress} {cs : List Char} (h : a.chars <+: cs)
    (h' : a'.chars <+: cs) : a = a' := by
  obtain ⟨behind, rfl⟩ := h
  obtain ⟨behind', heq⟩ := h'
  rw [chars_append, chars_append] at heq
  -- The number has no dash in it, so the architecture ends at the last one in front of the first
  -- dot.
  obtain ⟨hnode, hrest⟩ := Text.append_sep_inj a'.dot_not_mem_node a.dot_not_mem_node heq
  obtain ⟨harchi, hnumber⟩ :=
    Text.append_sep_inj_last a'.dash_not_mem_number a.dash_not_mem_number hnode
  have hsite := (Text.append_sep_inj a'.dot_not_mem_site a.dot_not_mem_site hrest).1
  exact NodeAddress.ext harchi.symm hnumber.symm hsite.symm

end NodeAddress

/-- A run of characters ends at the first that is not one of them. -/
theorem takeWhile_run {p : Char → Bool} {run : List Char} (h : ∀ c ∈ run, p c = true) {stop : Char}
    (hstop : p stop = false) (rest : List Char) :
    (run ++ stop :: rest).takeWhile p = run ∧ (run ++ stop :: rest).dropWhile p = stop :: rest := by
  rw [List.takeWhile_append_of_pos h, List.dropWhile_append_of_pos h,
    List.takeWhile_cons_of_neg (by simp [hstop]), List.dropWhile_cons_of_neg (by simp [hstop]),
    List.append_nil]
  exact ⟨rfl, rfl⟩

/-- The end of an address follows. -/
theorem beginsWithNumberAndSite_iff {archi cs : List Char} (hne : archi ≠ [])
    (harchi : ∀ c ∈ archi, isArchiChar c = true) :
    beginsWithNumberAndSite cs = true ↔ ∃ a : NodeAddress, a.archi = archi ∧ a.ending <+: cs := by
  constructor
  · intro h
    unfold beginsWithNumberAndSite at h
    split at h
    · rename_i r
      dsimp only at h
      split at h
      · rename_i d ds s hnumber hdot
        rw [Bool.and_eq_true, Bool.not_eq_true', List.isPrefixOf_iff_prefix] at h
        obtain ⟨hsite, behind, hbehind⟩ := h
        have hr : r.takeWhile Text.isDigit ++ '.' ::
            (s.takeWhile Char.isLower ++ domain ++ behind) = r := by
          rw [List.append_assoc, hbehind, List.takeWhile_append_dropWhile, ← hdot,
            List.takeWhile_append_dropWhile]
        refine ⟨⟨archi, r.takeWhile Text.isDigit, s.takeWhile Char.isLower, hne, harchi,
          by simp [hnumber], fun c => List.mem_takeWhile_imp, by simpa using hsite,
          fun c => List.mem_takeWhile_imp⟩, rfl, behind, ?_⟩
        rw [NodeAddress.ending, List.cons_append, List.append_assoc, List.cons_append, hr]
      · cases h
    · cases h
  · rintro ⟨a, rfl, behind, rfl⟩
    obtain ⟨htake, hdrop⟩ :=
      takeWhile_run a.isDigit_number (show Text.isDigit '.' = false by decide)
        (a.site ++ '.' :: (domain.tail ++ behind))
    obtain ⟨htake', hdrop'⟩ :=
      takeWhile_run a.isLower_site (show Char.isLower '.' = false by decide)
        (domain.tail ++ behind)
    obtain ⟨d, ds, hnumber⟩ := List.exists_cons_of_ne_nil a.number_ne_nil
    rw [a.ending_append, beginsWithNumberAndSite, htake, hdrop, hnumber]
    change (!((a.site ++ '.' :: (domain.tail ++ behind)).takeWhile Char.isLower).isEmpty &&
      domain.isPrefixOf ((a.site ++ '.' :: (domain.tail ++ behind)).dropWhile Char.isLower)) = true
    rw [htake', hdrop', Bool.and_eq_true, List.isPrefixOf_iff_prefix, ← List.cons_append,
      ← NodeAddress.domain_eq]
    exact ⟨by simpa using a.site_ne_nil, List.prefix_append _ _⟩

/-- The longest of the readings, if there are several. -/
theorem archiUpTo?_cases (cs : List Char) (n : Nat) :
    (archiUpTo? cs n = none ∧ ∀ k, 0 < k → k ≤ n → beginsWithNumberAndSite (cs.drop k) = false) ∨
      ∃ k, 0 < k ∧ k ≤ n ∧ beginsWithNumberAndSite (cs.drop k) = true ∧
      archiUpTo? cs n = some (cs.take k) := by
  induction n with
  | zero => exact .inl ⟨rfl, fun k hpos hk => by omega⟩
  | succ n ih =>
    rw [archiUpTo?]
    by_cases hfound : beginsWithNumberAndSite (cs.drop (n + 1)) = true
    · exact .inr ⟨n + 1, by omega, by omega, hfound, if_pos hfound⟩
    · rw [if_neg hfound]
      rcases ih with ⟨hnone, hnot⟩ | ⟨k, hpos, hk, hbegins, hsome⟩
      · refine .inl ⟨hnone, fun k hpos hk => ?_⟩
        by_cases hlast : k = n + 1
        · rw [hlast]
          exact Bool.eq_false_iff.2 hfound
        · exact hnot k hpos (by omega)
      · exact .inr ⟨k, hpos, by omega, hbegins, hsome⟩

theorem exists_prefix_of_archiUpTo? {cs archi : List Char}
    (h : archiUpTo? cs (cs.takeWhile isArchiChar).length = some archi) :
    ∃ a : NodeAddress, a.archi = archi ∧ a.chars <+: cs := by
  obtain ⟨hnone, -⟩ | ⟨k, hpos, hk, hbegins, hsome⟩ :=
    archiUpTo?_cases cs (cs.takeWhile isArchiChar).length
  · rw [hnone] at h
    cases h
  · obtain rfl : cs.take k = archi := by simpa [hsome] using h
    have hrun : cs.take k <+: cs.takeWhile isArchiChar :=
      List.prefix_of_prefix_length_le (List.take_prefix k cs) (List.takeWhile_prefix _)
        ((List.length_take_le k cs).trans hk)
    have hne : cs.take k ≠ [] := by
      have hlength := (List.takeWhile_prefix (l := cs) isArchiChar).length_le
      rw [← List.length_pos_iff, List.length_take]
      omega
    obtain ⟨a, harchi, hending⟩ := (beginsWithNumberAndSite_iff hne fun c hc =>
      List.mem_takeWhile_imp (hrun.mem hc)).1 hbegins
    refine ⟨a, harchi, ?_⟩
    rw [NodeAddress.chars, harchi]
    conv_rhs => rw [← List.take_append_drop k cs]
    exact (List.prefix_append_right_inj _).2 hending

/-- The architecture of the address that begins here. -/
theorem archiUpTo?_eq_some_iff {cs archi : List Char} :
    archiUpTo? cs (cs.takeWhile isArchiChar).length = some archi ↔
      ∃ a : NodeAddress, a.archi = archi ∧ a.chars <+: cs := by
  refine ⟨exists_prefix_of_archiUpTo?, ?_⟩
  rintro ⟨a, rfl, behind, rfl⟩
  have hlength : a.archi.length ≤ ((a.chars ++ behind).takeWhile isArchiChar).length := by
    rw [NodeAddress.chars, List.append_assoc, List.takeWhile_append_of_pos a.isArchiChar_archi,
      List.length_append]
    omega
  have hbegins : beginsWithNumberAndSite ((a.chars ++ behind).drop a.archi.length) = true := by
    rw [NodeAddress.chars, List.append_assoc, List.drop_left]
    exact (beginsWithNumberAndSite_iff a.archi_ne_nil a.isArchiChar_archi).2
      ⟨a, rfl, List.prefix_append _ _⟩
  cases h : archiUpTo? (a.chars ++ behind) ((a.chars ++ behind).takeWhile isArchiChar).length with
  | none =>
    obtain ⟨-, hnot⟩ | ⟨k, -, -, -, hsome⟩ :=
      archiUpTo?_cases (a.chars ++ behind) ((a.chars ++ behind).takeWhile isArchiChar).length
    · rw [hnot _ (List.length_pos_iff.2 a.archi_ne_nil) hlength] at hbegins
      cases hbegins
    · rw [h] at hsome
      cases hsome
  | some archi =>
    -- The search may have gone past the end of this architecture, but no other address begins here.
    obtain ⟨a', rfl, ha'⟩ := exists_prefix_of_archiUpTo? h
    rw [NodeAddress.eq_of_prefix ha' (List.prefix_append _ _)]

theorem not_prefix_of_archiUpTo? {cs : List Char}
    (h : archiUpTo? cs (cs.takeWhile isArchiChar).length = none) (a : NodeAddress) :
    ¬ a.chars <+: cs := by
  intro ha
  rw [archiUpTo?_eq_some_iff.2 ⟨a, rfl, ha⟩] at h
  cases h

/-! ## The first address -/

/-- An address inside a text, in front of which no other begins. -/
structure NodeAddress.FirstIn (a : NodeAddress) (cs before behind : List Char) : Prop where
  eq : cs = before ++ a.chars ++ behind
  first : ∀ (a' : NodeAddress) before' behind', cs = before' ++ a'.chars ++ behind' →
    before.length ≤ before'.length

namespace NodeAddress

theorem firstIn_of_prefix {a : NodeAddress} {cs : List Char} (h : a.chars <+: cs) :
    ∃ behind, a.FirstIn cs [] behind := by
  obtain ⟨behind, rfl⟩ := h
  exact ⟨behind, rfl, fun _ _ _ _ => Nat.zero_le _⟩

/-- The first address of a text stays the first if none begins with another character in front. -/
theorem FirstIn.cons {a : NodeAddress} {c : Char} {cs before behind : List Char}
    (h : a.FirstIn cs before behind) (hc : ∀ a' : NodeAddress, ¬ a'.chars <+: c :: cs) :
    a.FirstIn (c :: cs) (c :: before) behind := by
  refine ⟨by rw [h.eq, List.cons_append, List.cons_append], fun a' before' behind' heq => ?_⟩
  cases before' with
  | nil => exact absurd ⟨behind', heq.symm⟩ (hc a')
  | cons d before' => exact Nat.succ_le_succ (h.first a' before' behind' (List.cons.inj heq).2)

theorem FirstIn.unique {a a' : NodeAddress} {cs before before' behind behind' : List Char}
    (h : a.FirstIn cs before behind) (h' : a'.FirstIn cs before' behind') :
    a = a' ∧ before = before' ∧ behind = behind' := by
  have heq : before ++ (a.chars ++ behind) = before' ++ (a'.chars ++ behind') := by
    rw [← List.append_assoc, ← List.append_assoc, ← h.eq, ← h'.eq]
  have hlength := Nat.le_antisymm (h.first _ _ _ h'.eq) (h'.first _ _ _ h.eq)
  obtain ⟨hbefore, hrest⟩ := List.append_inj heq hlength
  obtain rfl := eq_of_prefix ⟨behind, hrest⟩ (List.prefix_append a'.chars behind')
  exact ⟨rfl, hbefore, List.append_cancel_left hrest⟩

end NodeAddress

theorem findArchi?_eq_none {cs : List Char} (h : findArchi? cs = none) (a : NodeAddress) :
    ¬ a.chars <:+: cs := by
  have hne : a.chars ≠ [] := by simp [NodeAddress.chars, a.archi_ne_nil]
  induction cs with
  | nil => simpa using hne
  | cons c cs ih =>
    rw [findArchi?] at h
    cases hhere : archiUpTo? (c :: cs) ((c :: cs).takeWhile isArchiChar).length with
    | some archi => simp [hhere] at h
    | none =>
      rw [hhere] at h
      rw [List.infix_cons_iff, not_or]
      exact ⟨not_prefix_of_archiUpTo? hhere a, ih h⟩

theorem exists_firstIn {cs archi : List Char} (h : findArchi? cs = some archi) :
    ∃ (a : NodeAddress) (before behind : List Char), a.FirstIn cs before behind ∧
      a.archi = archi := by
  induction cs with
  | nil => cases h
  | cons c cs ih =>
    rw [findArchi?] at h
    cases hhere : archiUpTo? (c :: cs) ((c :: cs).takeWhile isArchiChar).length with
    | some archi' =>
      obtain rfl : archi' = archi := by simpa [hhere] using h
      obtain ⟨a, harchi, ha⟩ := archiUpTo?_eq_some_iff.1 hhere
      obtain ⟨behind, hfirst⟩ := NodeAddress.firstIn_of_prefix ha
      exact ⟨a, [], behind, hfirst, harchi⟩
    | none =>
      rw [hhere] at h
      obtain ⟨a, before, behind, hfirst, harchi⟩ := ih h
      exact ⟨a, c :: before, behind, hfirst.cons (not_prefix_of_archiUpTo? hhere), harchi⟩

theorem findArchi?_eq_some_iff {cs archi : List Char} :
    findArchi? cs = some archi ↔
      ∃ (a : NodeAddress) (before behind : List Char), a.FirstIn cs before behind ∧
      a.archi = archi := by
  refine ⟨exists_firstIn, ?_⟩
  rintro ⟨a, before, behind, hfirst, rfl⟩
  cases h : findArchi? cs with
  | none => exact absurd ⟨before, behind, hfirst.eq.symm⟩ (findArchi?_eq_none h a)
  | some archi =>
    obtain ⟨a', before', behind', hfirst', rfl⟩ := exists_firstIn h
    rw [(hfirst.unique hfirst').1]

theorem boardOfArchi?_archi : ∀ b ∈ boards, boardOfArchi? b.archi = some b := by decide

/-- The board of the first address inside a text. -/
theorem boardOfAddress_eq_ok_iff {address : String} {b : Board} :
    boardOfAddress address = .ok b ↔ b ∈ boards ∧ ∃ (a : NodeAddress) (before behind : List Char),
      a.FirstIn address.toList before behind ∧ a.archi = b.archi.toList := by
  unfold boardOfAddress
  constructor
  · intro h
    split at h
    · rename_i b' hb'
      cases h
      obtain ⟨archi, harchi, hboard⟩ := Option.bind_eq_some_iff.1 hb'
      obtain ⟨a, before, behind, hfirst, rfl⟩ := findArchi?_eq_some_iff.1 harchi
      have hname : b.archi = String.ofList a.archi := by simpa using List.find?_some hboard
      exact ⟨List.mem_of_find?_eq_some hboard, a, before, behind, hfirst,
        by rw [hname, String.toList_ofList]⟩
    · cases h
  · rintro ⟨hb, a, before, behind, hfirst, harchi⟩
    rw [findArchi?_eq_some_iff.2 ⟨a, before, behind, hfirst, rfl⟩, Option.bind_some, harchi,
      String.ofList_toList, boardOfArchi?_archi b hb]

/-! ## Requests -/

/-- The text is the address of a node of a board on a site, and nothing else. -/
def Board.HasNode (b : Board) (site address : String) : Prop :=
  ∃ a : NodeAddress, address.toList = a.chars ∧ a.archi = b.archi.toList ∧ a.site = site.toList

/-- A request that is accepted on a site, with its environment. -/
inductive Accepted (site request : String) : Environment → Prop where
  | board {b : Board} (h : board? request = some b) :
      Accepted site request (Environment.empty.set Environment.boardVar request)
  /-- The site's name occurs in the request, and the first address inside it is that of a board. -/
  | address {b : Board} {a : NodeAddress} {before behind : List Char} (hb : b ∈ boards)
      (hsite : site.toList <:+: request.toList) (hfirst : a.FirstIn request.toList before behind)
      (harchi : a.archi = b.archi.toList) :
      Accepted site request
        ((Environment.empty.set Environment.addressVar request).set Environment.boardVar b.name)

theorem dot_not_mem_name : ∀ b ∈ boards, '.' ∉ b.name.toList := by decide

/-- No board is named like an address. -/
theorem board?_eq_none {request : String} (h : '.' ∈ request.toList) : board? request = none := by
  cases hboard : board? request with
  | none => rfl
  | some b =>
    obtain ⟨hb, rfl⟩ := board?_eq_some hboard
    exact absurd h (dot_not_mem_name b hb)

theorem NodeAddress.FirstIn.dot_mem {a : NodeAddress} {cs before behind : List Char}
    (h : a.FirstIn cs before behind) :
    '.' ∈ cs := by
  rw [h.eq, List.append_assoc, a.chars_append]
  simp

theorem requestedDevice_eq_ok_iff {site r : String} {e : Environment} :
    requestedDevice site r = .ok e ↔ Accepted site r e := by
  constructor
  · intro h
    obtain ⟨b, hboard, rfl⟩ | ⟨b, -, hsite, haddress, rfl⟩ := requestedDevice_cases h
    · exact .board hboard
    · obtain ⟨hb, a, before, behind, hfirst, harchi⟩ := boardOfAddress_eq_ok_iff.1 haddress
      exact .address hb ((Text.contains_iff _ _).1 hsite) hfirst harchi
  · intro h
    unfold requestedDevice checkAddress
    cases h with
    | board hboard => rw [hboard]; rfl
    | address hb hsite hfirst harchi =>
      rw [board?_eq_none hfirst.dot_mem, (Text.contains_iff _ _).2 hsite,
        boardOfAddress_eq_ok_iff.2 ⟨hb, _, _, _, hfirst, harchi⟩]
      rfl

theorem requested_eq_ok_iff_accepted {requests : List String} {site : String}
    {es : List Environment} :
    requested requests site = .ok es ↔ site ∈ sites ∧ List.Forall₂ (Accepted site) requests es := by
  simp only [requested_eq_ok_iff, requestedDevice_eq_ok_iff]

theorem exists_accepted {requests : List String} {site : String} {es : List Environment}
    (h : requested requests site = .ok es) : ∀ e ∈ es, ∃ r ∈ requests, Accepted site r e := by
  obtain ⟨hlength, hget⟩ := List.forall₂_iff_get.1 (requested_eq_ok_iff_accepted.1 h).2
  intro e he
  obtain ⟨i, hi, rfl⟩ := List.getElem_of_mem he
  exact ⟨_, List.getElem_mem (hlength ▸ hi), hget i (hlength ▸ hi) hi⟩

/-! ## Addresses of nodes -/

theorem NodeAddress.firstIn_chars (a : NodeAddress) : a.FirstIn a.chars [] [] :=
  ⟨by simp, fun _ _ _ _ => Nat.zero_le _⟩

/-- An address with nothing around it is of its site if the site is the one that it names. -/
theorem Board.hasNode_iff {b : Board} {site address : String} {a : NodeAddress}
    {before behind : List Char} (hfirst : a.FirstIn address.toList before behind)
    (harchi : a.archi = b.archi.toList) :
    b.HasNode site address ↔ before = [] ∧ behind = [] ∧ a.site = site.toList := by
  constructor
  · rintro ⟨a', haddress, -, hsite⟩
    rw [haddress] at hfirst
    obtain ⟨rfl, rfl, rfl⟩ := hfirst.unique a'.firstIn_chars
    exact ⟨rfl, rfl, hsite⟩
  · rintro ⟨rfl, rfl, hsite⟩
    exact ⟨a, by simpa using hfirst.eq, harchi, hsite⟩

theorem separators_not_mem_sites : ∀ site ∈ sites, '.' ∉ site.toList ∧ '-' ∉ site.toList := by
  decide

theorem sites_not_in_archi : ∀ site ∈ sites, ∀ b ∈ boards, ¬ site.toList <:+: b.archi.toList := by
  decide +kernel

theorem sites_not_digits : ∀ site ∈ sites, site.toList.all Text.isDigit = false := by decide

theorem sites_not_in_domain : ∀ site ∈ sites, ¬ site.toList <:+: domain.tail := by decide +kernel

theorem sites_apart :
    ∀ site ∈ sites, ∀ site' ∈ sites, site.toList <:+: site'.toList → site = site' := by
  decide +kernel

/-- The site's name occurs in the address of a node if it occurs in the site of that. -/
theorem site_infix_iff {b : Board} {site address : String} {a : NodeAddress} (hsite : site ∈ sites)
    (hb : b ∈ boards) (haddress : address.toList = a.chars) (harchi : a.archi = b.archi.toList) :
    site.toList <:+: address.toList ↔ site.toList <:+: a.site := by
  obtain ⟨hdot, hdash⟩ := separators_not_mem_sites site hsite
  have hnumber : ¬ site.toList <:+: a.number := by
    intro hinside
    have hdigits := List.all_eq_true.2 fun c hc => a.isDigit_number c (hinside.mem hc)
    rw [sites_not_digits site hsite] at hdigits
    cases hdigits
  have hchars : a.chars =
      (a.archi ++ '-' :: a.number) ++ '.' :: (a.site ++ '.' :: domain.tail) := by
    simpa using a.chars_append []
  rw [haddress, hchars, Text.infix_append_sep hdot, Text.infix_append_sep hdash,
    Text.infix_append_sep hdot, harchi]
  simp [sites_not_in_archi site hsite b hb, hnumber, sites_not_in_domain site hsite]

/-- The address of a node is accepted on the sites whose name occurs in that of its own. -/
theorem accepted_hasNode_iff {b : Board} {site own address : String} (hsite : site ∈ sites)
    (hb : b ∈ boards) (haddress : b.HasNode own address) :
    (∃ es, requested [address] site = .ok es) ↔ site.toList <:+: own.toList := by
  obtain ⟨a, hchars, harchi, hown⟩ := haddress
  have hfirst : a.FirstIn address.toList [] [] := by
    rw [hchars]
    exact a.firstIn_chars
  have hvalid : Valid site address ↔ site.toList <:+: own.toList := by
    rw [Valid, board?_eq_none hfirst.dot_mem, Text.contains_iff,
      site_infix_iff hsite hb hchars harchi, hown]
    simp only [Option.isSome_none, Bool.false_eq_true, false_or, and_iff_left_iff_imp]
    exact fun _ => ⟨b, boardOfAddress_eq_ok_iff.2 ⟨hb, a, [], [], hfirst, harchi⟩⟩
  simp [exists_requested_iff, hsite, hvalid]

/-- **The requests that are accepted.** On a site of the testbed they are the boards and the texts
in which the site's name occurs and whose first address is that of a board. An environment with an
address has the board of that first address, and the address is that of a node on the site exactly
if nothing stands around it and it names the site. The address of a node with another site is
accepted only if the site's name is a part of that, which is of no other site of the testbed. -/
theorem requested_language (requests : List String) (site : String) :
    (∀ es, requested requests site = .ok es ↔
      site ∈ sites ∧ List.Forall₂ (Accepted site) requests es) ∧
        (∀ es, requested requests site = .ok es →
          ∀ e ∈ es, ∀ address, address? e = some address → address ∈ requests ∧ ∃ b ∈ boards,
            e.board? = some b.name ∧
            ∃ (a : NodeAddress) (before behind : List Char),
            a.FirstIn address.toList before behind ∧ a.archi = b.archi.toList ∧
            (b.HasNode site address ↔ before = [] ∧ behind = [] ∧ a.site = site.toList)) ∧
      (site ∈ sites → ∀ b ∈ boards, ∀ own address, b.HasNode own address →
        ((∃ es, requested [address] site = .ok es) ↔ site.toList <:+: own.toList) ∧
        (own ∈ sites → ((∃ es, requested [address] site = .ok es) ↔ own = site))) := by
  refine ⟨fun es => requested_eq_ok_iff_accepted, fun es hes e he address haddress => ?_,
    fun hsite b hb own address hnode => ⟨accepted_hasNode_iff hsite hb hnode, fun hown => ?_⟩⟩
  · obtain ⟨r, hr, haccepted⟩ := exists_accepted hes e he
    cases haccepted with
    | board hboard => cases haddress
    | @address b a before behind hb hsite hfirst harchi =>
      obtain rfl : r = address := by
        simpa [address?, get?_addressVar_addressed] using haddress
      exact ⟨hr, b, hb, Variables.get?_set_self .., a, before, behind, hfirst, harchi,
        Board.hasNode_iff hfirst harchi⟩
  · rw [accepted_hasNode_iff hsite hb hnode]
    exact ⟨fun h => (sites_apart site hsite own hown h).symm, fun h => h ▸ List.infix_rfl⟩

/-- The name of a node on the site, with another host's behind it. -/
theorem requested_language_otherHost :
    let address := "m3-1.lille.iot-lab.info.evil.org"
    ∃ es, requested [address] "lille" = .ok es ∧ ∃ e ∈ es, address? e = some address ∧
      ∃ b ∈ boards, e.board? = some b.name ∧ ¬ b.HasNode "lille" address := by
  intro address
  have hfind : findArchi? address.toList = some "m3".toList := by decide +kernel
  obtain ⟨a, before, behind, hfirst, harchi⟩ := exists_firstIn hfind
  have hb : (⟨"iotlab-m3", "m3", "at86rf231"⟩ : Board) ∈ boards := by decide
  obtain ⟨hlanguage, haddresses, -⟩ := requested_language [address] "lille"
  have hes := (hlanguage _).2
    ⟨by decide, .cons (.address hb (by decide +kernel) hfirst harchi) .nil⟩
  obtain ⟨-, b, hb, hname, a', before', behind', hfirst', -, hnode⟩ :=
    haddresses _ hes _ (List.mem_singleton.2 rfl) address (get?_addressVar_addressed ..)
  refine ⟨_, hes, _, List.mem_singleton.2 rfl, get?_addressVar_addressed .., b, hb, hname, ?_⟩
  rw [hnode]
  rintro ⟨rfl, rfl, -⟩
  have hdomain : domain <:+ address.toList := by
    rw [hfirst'.eq, List.nil_append, List.append_nil]
    exact a'.domain_suffix
  exact absurd hdomain (by decide +kernel)

end ProximityLab.Testbed
