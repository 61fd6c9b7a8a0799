import ProximityLab.Proofs.Testbed.Address

/-!
# Two ways to recognise the board of a node

A request that gives an address has the board whose architecture the address names
(`boardOfAddress`). A request that gives a board takes an address that begins with its architecture
(`isAddressOf`). The first way cuts the address at its separators, the second does not.

- **One board** (`boardOfAddress_of_hasNode`, `isAddressOf_iff_of_hasNode`): what each way makes of
  a node's address.
- **Agreement** (`recognized_alike`): the two ways find the same board, and no other one.
-/

namespace ProximityLab.Testbed

/-- The address of a node of a board. -/
def Board.address (b : Board) (number site : String) : String :=
  b.archi ++ "-" ++ number ++ "." ++ site ++ ".iot-lab.info"

theorem archi_ne_nil : ∀ b ∈ boards, b.archi.toList ≠ [] := by decide

theorem isArchiChar_of_mem_archi : ∀ b ∈ boards, ∀ c ∈ b.archi.toList, isArchiChar c = true := by
  have hall : ∀ b ∈ boards, b.archi.toList.all isArchiChar = true := by decide
  exact fun b hb => List.all_eq_true.1 (hall b hb)

/-- The digits of ASCII are digits. -/
theorem isDigit_of_ascii {c : Char} (h : c.isDigit = true) : Text.isDigit c = true := by
  refine List.any_eq_true.2 ⟨(0x30, 0x39), List.mem_cons_self, ?_⟩
  simpa [Char.isDigit, UInt32.le_iff_toNat_le] using h

/-- The text is the address of a node if its number has digits and its site letters. -/
theorem Board.hasNode_address {b : Board} (hb : b ∈ boards) {number site : String}
    (hnumber : number ≠ "") (hdigits : ∀ c ∈ number.toList, c.isDigit = true) (hsite : site ≠ "")
    (hletters : ∀ c ∈ site.toList, c.isLower = true) : b.HasNode site (b.address number site) := by
  have hnumber : number.toList ≠ [] := mt String.toList_eq_nil_iff.1 hnumber
  have hsite : site.toList ≠ [] := mt String.toList_eq_nil_iff.1 hsite
  have hall : ∀ c ∈ number.toList, Text.isDigit c = true :=
    fun c hc => isDigit_of_ascii (hdigits c hc)
  refine ⟨⟨b.archi.toList, number.toList, site.toList, archi_ne_nil b hb,
    isArchiChar_of_mem_archi b hb, hnumber, hall, hsite, hletters⟩, ?_, rfl, rfl⟩
  have hdash : "-".toList = ['-'] := by decide
  have hdot : ".".toList = ['.'] := by decide
  have hdomain : ".iot-lab.info".toList = domain := rfl
  simp only [Board.address, String.toList_append, NodeAddress.chars, NodeAddress.ending, hdash,
    hdot, hdomain, List.append_assoc, List.cons_append, List.nil_append]

section Node

variable {b : Board} (hb : b ∈ boards) {site address : String} (h : b.HasNode site address)
include hb h

theorem boardOfAddress_of_hasNode : boardOfAddress address = .ok b := by
  obtain ⟨a, haddress, harchi, -⟩ := h
  refine boardOfAddress_eq_ok_iff.2 ⟨hb, a, [], [], ?_, harchi⟩
  rw [haddress]
  exact a.firstIn_chars

/-- No other board's architecture is the beginning of this one's, so no other request takes the
address. -/
theorem isAddressOf_iff_of_hasNode (name : String) :
    isAddressOf name address = true ↔ name = b.name := by
  have hstarts : Text.startsWith b.archi address = true := by
    obtain ⟨a, haddress, harchi, -⟩ := h
    rw [Text.startsWith, List.isPrefixOf_iff_prefix, haddress, ← harchi]
    exact List.prefix_append a.archi a.ending
  rw [isAddressOf, Option.any_eq_true]
  constructor
  · rintro ⟨c, hc, hcstarts⟩
    obtain ⟨hcmem, hname⟩ := board?_eq_some hc
    rw [← hname, boards_apart hb hcmem hstarts hcstarts]
  · rintro rfl
    exact ⟨b, board?_name b hb, hstarts⟩

end Node

/-- **Both ways agree.** The address of a node of a board, whatever its number and its site, is
recognised as that of this board; of all requests for a board those for this one take it, and so the
requests that take it are those for the board that is recognised. -/
theorem recognized_alike {b : Board} (hb : b ∈ boards) {number site : String}
    (hnumber : number ≠ "") (hdigits : ∀ c ∈ number.toList, c.isDigit = true) (hsite : site ≠ "")
    (hletters : ∀ c ∈ site.toList, c.isLower = true) :
    let address := b.address number site
    boardOfAddress address = .ok b ∧ (∀ name, isAddressOf name address = true ↔ name = b.name) ∧
      ∀ name, isAddressOf name address = true ↔
      ∃ c, boardOfAddress address = .ok c ∧ c.name = name := by
  intro address
  have hnode : b.HasNode site address := Board.hasNode_address hb hnumber hdigits hsite hletters
  have hboard := boardOfAddress_of_hasNode hb hnode
  have hname := isAddressOf_iff_of_hasNode hb hnode
  refine ⟨hboard, hname, fun name => ?_⟩
  rw [hname, hboard]
  constructor
  · rintro rfl
    exact ⟨b, rfl, rfl⟩
  · rintro ⟨c, hc, rfl⟩
    cases hc
    rfl

/-- An architecture with a dash and a digit in it, in front of a number that goes on with digits. -/
theorem recognized_alike_dashes :
    let b : Board := ⟨"b-l072z-lrwan1", "st-lrwan1", "sx1276"⟩
    let address := "st-lrwan1-1001.saclay.iot-lab.info"
    b ∈ boards ∧ b.address "1001" "saclay" = address ∧
      boardOfAddress address = .ok b ∧ ∀ name, isAddressOf name address = true ↔
      name = "b-l072z-lrwan1" := by
  intro b address
  have hb : b ∈ boards := by decide
  have haddress : b.address "1001" "saclay" = address := by decide +kernel
  obtain ⟨hboard, hname, -⟩ := recognized_alike hb
    (show "1001" ≠ "" by decide) (List.all_eq_true.1 (by decide)) (show "saclay" ≠ "" by decide)
    (List.all_eq_true.1 (by decide))
  exact ⟨hb, haddress, haddress ▸ hboard, haddress ▸ hname⟩

end ProximityLab.Testbed
