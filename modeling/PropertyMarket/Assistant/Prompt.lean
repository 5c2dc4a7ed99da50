import PropertyMarket.Field
import PropertyMarket.Operation
import PropertyMarket.Value.Json

/-!
# Prompts

What the language model is told before a question. The vocabularies in a prompt are those of the
catalog and of the tables of fields, so a prompt never names what a request may not.

## Main definitions

* `Prompt` — the prompts: intents, classifications, and the arguments of an operation
* `Prompt.text` — the text of a prompt
* `Prompt.ofCategory` — the prompt for the arguments of a category

## Implementation notes

A prompt is a text, and the only thing that matters about it here is where its words come from. So
the lists in it are computed from the catalog and from the tables of fields, and only the sentences
around them are written out. Braces in a text are written as escapes.
-/

namespace PropertyMarket

/-- The prompts: one for intents, one for classifications, and one for each kind of operation. -/
inductive Prompt where
  | intent
  | classification
  | operation (kind : Operation.Kind)
  deriving DecidableEq, Repr

namespace Prompt

/-! ### Parts

How lists of words and numbers are set into a sentence, and how a worked question is written: the
question, and under it the intent as JSON. -/

/-- Lines of text. -/
def lines (ls : List String) : String := "\n".intercalate ls

/-- Words in double quotes, with commas between them. -/
def quotedList (words : List String) : String :=
  ", ".intercalate (words.map fun w => "\"" ++ w ++ "\"")

/-- The first and the last of some numbers, which are in order where it is used. -/
def span (numbers : List Int) : String :=
  intText (numbers.head?.getD 0) ++ " to " ++ intText (numbers.getLast?.getD 0)

/-- A question with the intent that it should become, on a line of its own. -/
def worked (question : String) (intent : Record) : String :=
  "User: \"" ++ question ++ "\"\n" ++ Json.write .full (.record intent)

/-! ### Intents

The prompt for intents says what each field of an intent is for and ends with worked questions,
whose intents are written by the same writer that other values go through. -/

/-- Questions in common words, with their intents. Between them they show most of the fields. -/
def workedIntents : List String := [
  worked "Show me the top 10 communes by average price per square meter in 2024."
    [("primaryDimension", .text "inseeCode"), ("metric", .text "avg_price_m2"),
      ("year", .int 2024), ("limit", .int 10), ("sortOrder", .text "desc")],
  worked "Filter apartments sold in INSEE 75117 with at least 50 sales last year."
    [("inseeCodes", .ofTexts ["75117"]), ("propertyType", .text "apartment"),
      ("year", .int Calendar.latestYear), ("minSales", .int 50)],
  worked "Show me sections 75112000BZ and 75107000AY with average price above 5000 per m²."
    [("sections", .ofTexts ["75112000BZ", "75107000AY"]),
      ("filters", .record [("avg_price_m2",
        .record [("operation", .text "gte"), ("value", .int 5000)])])],
  worked "Compare Paris (75101) and Lyon (69123) by total sales in 2023."
    [("inseeCodes", .ofTexts ["75101", "69123"]), ("primaryDimension", .text "inseeCode"),
      ("metric", .text "total_sales"), ("year", .int 2023)]]

/-- The prompt for intents: principles, rules for each field, and the worked questions. -/
def intentText : String :=
  let metrics := quotedList Metric.names
  lines [
    "You translate natural language about French property sales into structured JSON.",
    "",
    "Key principles:",
    "- Dimension filtering (location, time): use \"inseeCodes\", \"sections\", \"year\", " ++
      "\"month\", \"primaryDimension\" and \"propertyType\" directly.",
    "- Numerical filtering (metrics): use the \"filters\" object keyed by metric field name.",
    "",
    "Rules:",
    "- Omit optional fields when the user does not imply them.",
    "- \"primaryDimension\": " ++ quotedList Dimension.names ++ ". Set when grouping by that " ++
      "dimension (e.g. \"by commune\", \"by year\").",
    "- \"metric\": " ++ metrics ++ ". Set when the user names a metric to inspect or order by.",
    "- \"propertyType\": " ++ quotedList (Vocabulary.words PropertyType) ++
      ". Map plural phrases like \"apartments\" to \"apartment\".",
    "- \"inseeCodes\": array of 5-digit INSEE codes as strings (e.g. \"75112\").",
    "- \"sections\": array of 10-character section identifiers (e.g. \"75112000BZ\").",
    "- \"year\": integer from " ++ span Calendar.years ++ ". Omit if invalid or unspecified.",
    "- \"month\": integer from " ++ span Calendar.months ++ ". Omit if invalid or unspecified.",
    "- \"filters\": object keyed by metric field (" ++ metrics ++ "); each value has",
    "  \"operation\" (" ++ quotedList (Vocabulary.words NumericFilter.Operation) ++
      ") and \"value\" (number, or [low, high] for \"between\").",
    "- \"minSales\": integer >= 0, minimum number of transactions.",
    "- \"limit\": integer between 1 and 500, for explicit limits like \"top 10\".",
    "- \"sortOrder\": \"asc\" or \"desc\". Use \"desc\" for highest/top, \"asc\" for lowest/bottom.",
    "- Do not invent geographic codes; omit location fields if uncertain.",
    "",
    "Return ONLY a JSON object.",
    "",
    "Examples:",
    "\n\n".intercalate workedIntents]

/-! ### Classification

The categories are the words of the vocabulary, once in the instruction and once in the shape of the
reply. -/

/-- The prompt for classifications. -/
def classificationText : String :=
  let categories := " | ".intercalate (Vocabulary.words Category)
  lines [
    "You are a data assistant. Your task is ONLY to classify the user's request, NOT to run any " ++
      "data operation.",
    "",
    "Classify the request into one of: " ++ categories ++ ".",
    "",
    "Guidance:",
    "- List, filter or retrieve rows/columns: \"query\".",
    "- Group, count, average, sum, min/max over groups or time: \"aggregate\".",
    "- A derived figure (percentile, price per m²) without retrieval details: \"calculate\".",
    "- Questions about the table or its fields: \"schema\".",
    "- Interpretation or trend explanations: \"explain\".",
    "- Comparing two sets or time periods conceptually: \"compare\".",
    "- Unclear or out of scope: \"unknown\".",
    "",
    "Return ONLY a JSON object:",
    "\x7b\"category\": \"" ++ categories ++
      "\", \"confidence\": 0..1, \"explanation\": \"brief rationale\"\x7d"]

/-! ### Operations

The three prompts for arguments have the same rules and differ in the shape that they ask for. -/

/-- The shape of the arguments of an operation, as an object with what may stand for each part. -/
def shape : Operation.Kind → String
  | .query =>
    "\x7b\"select\": [field], \"filters\": [...], \"sort\": [...], \"limit\": n, \"offset\": n\x7d"
  | .aggregate =>
    "\x7b\"groupBy\": [field], \"metrics\": [\x7b\"metric\": \"count|sum|avg|min|max\", " ++
      "\"field\": field\x7d], \"filters\": [...], \"sort\": [...], \"limit\": n\x7d"
  | .calculate =>
    "\x7b\"groupBy\": [field], \"computations\": [\x7b\"name\": \"percentile\", " ++
      "\"field\": field, \"p\": 0..100\x7d | \x7b\"name\": \"avgPricePerM2\"\x7d], " ++
      "\"filters\": [...], \"sort\": [...], \"limit\": n\x7d"

/-- The prompt for the arguments of an operation. It lists the fields of the raw sales, and apart
from them the ones that may be grouped by. -/
def operationText (kind : Operation.Kind) : String :=
  let fields := Family.transactions.fields
  lines [
    "You convert the user's request into arguments for ONE read-only query over the " ++
      "property_sales table.",
    "",
    "Rules:",
    "- Use ONLY these fields: " ++ quotedList (fields.map Field.name) ++
      ". Do not invent columns or aliases.",
    "- Group only by: " ++ quotedList ((fields.filter Field.groupable).map Field.name) ++ ".",
    "- A filter is \x7b\"field\": field, \"operator\": " ++
      "\"=|!=|>|>=|<|<=|between|in|ilike|is_null\", \"value\": ...\x7d;",
    "  \"between\" takes [low, high], \"in\" a non-empty array, \"is_null\" a boolean.",
    "- A sort entry is \x7b\"field\": field or produced label, \"direction\": \"asc|desc\"\x7d; " ++
      "omit sort if not specified.",
    "- Geography: \"primaryInseeCode\" / \"primarySection\". Time: \"year\" / \"month\".",
    "- Omit anything the user does not imply.",
    "",
    "Return ONLY a JSON object shaped as:",
    shape kind]

/-! ### Prompts

What is asked for in each case, and which case a category is. -/

/-- The text of a prompt. -/
def text : Prompt → String
  | .intent => intentText
  | .classification => classificationText
  | .operation kind => operationText kind

/-- The prompt for the arguments of a category; a category without an operation has none. -/
def ofCategory (c : Category) : Except Fault Prompt :=
  match c.operation? with
  | some kind => .ok (.operation kind)
  | none => .error (.noPrompt c)

end Prompt

end PropertyMarket
