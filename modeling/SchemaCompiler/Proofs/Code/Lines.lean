import SchemaCompiler.Code.Item

/-!
# Files of lines

A file whose items all stand on one line consists of these lines, each with a line end behind it,
however long they are.
-/

namespace SchemaCompiler
namespace Code

namespace Layout

/-- No line end is left out behind lines. -/
theorem dropLeading_lines (lines : List String) :
    dropLeading (lines.flatMap Item.lineLayout) = lines.flatMap Item.lineLayout := by
  induction lines with
  | nil => rfl
  | cons line rest hypothesis =>
      rw [List.flatMap_cons]
      cases rest with
      | nil => rfl
      | cons second others =>
          have behind : dropLeading (.word line :: lineEnd :: (second :: others).flatMap
              Item.lineLayout) = .word line :: lineEnd ::
                dropLeading ((second :: others).flatMap Item.lineLayout) := rfl
          exact behind.trans (congrArg (.word line :: lineEnd :: ·) hypothesis)

/-- Lines do not fit on one line. -/
theorem lineWidth_lt_widthAll
    {lines : List String}
    (nonempty : lines ≠ []) :
    lineWidth < widthAll (lines.flatMap Item.lineLayout) := by
  obtain ⟨line, rest, rfl⟩ := List.exists_cons_of_ne_nil nonempty
  rw [List.flatMap_cons, Item.lineLayout, List.cons_append, List.cons_append, widthAll, widthAll,
    lineEnd, blank, width, width]
  dsimp only [lineWidth, endlessBlanks]
  omega

/-- A line is written behind what the page has, with a line end. -/
theorem writeAll_lines
    (lines : List String)
    (after : Nat)
    {page : Page}
    (flush : page.indentation = 0)
    (settled : page.owed = 0) :
    (writeAll (.broken .all) after page (lines.flatMap Item.lineLayout)).text =
      page.text ++ String.join (lines.map (· ++ "\n")) := by
  induction lines generalizing page with
  | nil =>
      rw [List.flatMap_nil, writeAll]
      simp
  | cons line rest hypothesis =>
      rw [List.flatMap_cons, Item.lineLayout, List.cons_append, List.cons_append, writeAll,
        writeAll, List.nil_append, lineEnd, blank, write, write]
      have ends : ∀ room, Frame.ends (.broken .all) ⟨endlessBlanks, 0, "", false, false⟩
        (endlessBlanks + reach after (rest.flatMap Item.lineLayout)) room = true := fun _ => rfl
      rw [if_pos (ends _), hypothesis]
      · simp [Page.endLine, Page.write, Page.settle, settled, String.append_assoc]
      · exact flush
      · simpa [Page.endLine, Page.write, Page.settle] using flush

/-- The text of lines is the lines with their ends. -/
theorem text_lines
    {lines : List String}
    (nonempty : lines ≠ []) :
    text (block 0 (lines.flatMap Item.lineLayout)) = String.join (lines.map (· ++ "\n")) := by
  have boxes : block 0 (lines.flatMap Item.lineLayout) =
      [.box 0 .all (lines.flatMap Item.lineLayout)] := by
    rw [block, boxed]
    · rw [dropLeading_lines]
    · obtain ⟨line, rest, rfl⟩ := List.exists_cons_of_ne_nil nonempty
      rintro place ⟨⟩
  have wide : Page.empty.room < (widthAll (lines.flatMap Item.lineLayout) : Int) + (0 : Nat) :=
    Int.ofNat_lt.mpr (lineWidth_lt_widthAll nonempty)
  rw [text, boxes, writeAll, writeAll, reach, write, if_pos wide]
  dsimp only
  rw [writeAll_lines lines 0 rfl rfl]
  exact String.empty_append

end Layout

/-- A file of items that stand on one line each has these lines. -/
theorem fileText_of_lines
    {visibility : Visibility}
    {items : List Item}
    {lines : List String}
    (nonempty : lines ≠ [])
    (each : items.flatMap (Item.layout visibility) = lines.flatMap Item.lineLayout) :
    fileText visibility items = String.join (lines.map (· ++ "\n")) := by
  rw [fileText, each, Layout.text_lines nonempty]

end Code
end SchemaCompiler
