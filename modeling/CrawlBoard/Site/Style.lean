
namespace CrawlBoard.Style

structure Rule where
  selectors : List String
  declarations : List (String × String)
  deriving DecidableEq, Repr

def Rule.text (rule : Rule) : String :=
  ",\n".intercalate rule.selectors ++ " \x7b\n"
    ++ String.join (rule.declarations.map fun (name, value) => "    " ++ name ++ ": " ++ value ++ ";\n")
    ++ "\x7d\n"

def rules : List Rule := [
  ⟨[":root"], [("--bg", "#f7f8fa"), ("--fg", "#1d2430"), ("--muted", "#6b7280"),
    ("--accent", "#1f6feb"), ("--success", "#1a7f37"), ("--warning", "#9a6700"),
    ("--error-bg", "#cf222e"), ("--border", "#d0d7de")]⟩,
  ⟨["body"], [("margin", "0"),
    ("font-family", "system-ui, -apple-system, \"Segoe UI\", sans-serif"),
    ("background", "var(--bg)"), ("color", "var(--fg)")]⟩,
  ⟨["main"], [("max-width", "1100px"), ("margin", "0 auto"), ("padding", "0 16px 48px")]⟩,
  ⟨["a"], [("color", "var(--accent)")]⟩,
  ⟨[".header-row"], [("display", "flex"), ("align-items", "center"),
    ("justify-content", "space-between"), ("gap", "16px"), ("padding", "12px 24px"),
    ("background", "#0b2545"), ("color", "white")]⟩,
  ⟨[".header-row h1"], [("font-size", "1.5rem"), ("margin", "0")]⟩,
  ⟨[".logo"], [("color", "white"), ("font-weight", "700"), ("text-decoration", "none")]⟩,
  ⟨[".download-buttons"], [("display", "flex"), ("gap", "8px")]⟩,
  ⟨[".download-button"], [("padding", "6px 12px"), ("border-radius", "4px"),
    ("background", "white"), ("color", "#0b2545"), ("text-decoration", "none"),
    ("font-size", "0.9rem")]⟩,
  ⟨[".brevity-info"], [("color", "var(--muted)"), ("display", "block"), ("margin", "16px 0")]⟩,
  ⟨[".pagination"], [("display", "flex"), ("align-items", "center"),
    ("justify-content", "center"), ("gap", "16px"), ("margin", "16px 0")]⟩,
  ⟨[".page-link.disabled"], [("color", "var(--muted)")]⟩,
  ⟨[".page-error"], [("color", "var(--error-bg)"), ("text-align", "center")]⟩,
  ⟨[".sitemap"], [("background", "white"), ("border", "1px solid var(--border)"),
    ("border-radius", "6px"), ("padding", "12px 16px"), ("margin-bottom", "16px")]⟩,
  ⟨[".sitemap-header-row"], [("display", "flex"), ("align-items", "baseline"),
    ("justify-content", "space-between")]⟩,
  ⟨[".sitemap h2"], [("font-size", "1.15rem"), ("margin", "4px 0")]⟩,
  ⟨[".muted"], [("color", "var(--muted)")]⟩,
  ⟨[".meta"], [("display", "block"), ("margin", "8px 0")]⟩,
  ⟨[".loading"], [("color", "var(--muted)"), ("font-style", "italic")]⟩,
  ⟨[".success"], [("color", "var(--success)"), ("cursor", "pointer")]⟩,
  ⟨[".error-text"], [("color", "var(--error-bg)"), ("cursor", "pointer")]⟩,
  ⟨[".warning-text"], [("color", "var(--warning)"), ("cursor", "pointer")]⟩,
  ⟨[".warnings"], [("margin-top", "8px")]⟩,
  ⟨[".url-list"], [("max-height", "300px"), ("overflow-y", "auto"), ("font-size", "0.9rem")]⟩,
  ⟨[".failure-table"], [("width", "100%"), ("border-collapse", "collapse"),
    ("font-size", "0.9rem"), ("margin-top", "8px")]⟩,
  ⟨[".failure-table th", ".failure-table td"], [("border", "1px solid var(--border)"),
    ("padding", "4px 8px"), ("text-align", "left"), ("vertical-align", "top")]⟩,
  ⟨[".failure-link"], [("color", "var(--error-bg)")]⟩,
  ⟨[".warning-link"], [("color", "var(--warning)")]⟩,
  ⟨[".empty"], [("text-align", "center"), ("color", "var(--muted)")]⟩]

def sheet : String := "\n".intercalate (rules.map Rule.text)

end CrawlBoard.Style
