import CrawlBoard.Proofs.ReportFields

namespace CrawlBoard

namespace Report

/-- A report is read back from its text, and so is whatever a document was read as. -/
theorem text_read_back (report : Report) (survives : Json.Survives report.seconds) :
    parse (Utf8.encode report.text) = .ok report ∧
      (∀ document, parse document = .ok report →
        parse (Utf8.encode report.text) = parse document) ∧
      ∀ again, parse (Utf8.encode report.text) = .ok again → again.text = report.text := by
  have back : parse (Utf8.encode report.text) = .ok report := by
    rw [parse, text]
    have reads := readAs survives _ (Json.Tree.writes_bytes report.tree)
    have whole := reads.document .nil .nil
    rwa [List.nil_append, List.append_nil] at whole
  refine ⟨back, fun document read => by rw [back, read], fun again read => ?_⟩
  obtain rfl : report = again := Except.ok.inj (back.symm.trans read)
  rfl

def specimen : Report where
  sitemap := "a \"quoted\" \\ name\n\x01é"
  harvestedUrls := ["https://a.example/1", ""]
  failures? := some [⟨"https://a.example/2", 404, "Not Found", .invalid, "\t"⟩]
  seconds := 12.345
  sitesHarvested := 0xFFFFFFFFFFFFFFFF
  sitesListed := 0
  warnings? := some ⟨3, [⟨"https://a.example/3", .valid, "𝄞"⟩]⟩
  sourceLink? := some "https://a.example/sitemap.xml"
  lastModified? := none

theorem specimen_read_back :
    Json.Survives specimen.seconds ∧ parse (Utf8.encode specimen.text) = .ok specimen :=
  have survives : Json.Survives specimen.seconds := by decide +kernel
  ⟨survives, (text_read_back specimen survives).1⟩

end Report

end CrawlBoard
