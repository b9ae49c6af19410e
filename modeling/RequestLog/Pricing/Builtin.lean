import RequestLog.Pricing.Table

/-!
# The built-in price list

Prices of the models that are known without a price file. Every rule asks for
exactly one model, so their order does not matter, and a model that is not
listed costs nothing.
-/

namespace RequestLog.Pricing

/-- A price in hundred-millionths of a dollar. -/
def price (units : Nat) : Float := Decimal.Scientific.toFloat ⟨false, units, -8⟩

/-- The rule of one model: its prices for a prompt and a completion token. -/
def listed (model : String) (prompt completion window : Nat) : Rule :=
  ⟨⟨.equals, model⟩, ⟨price prompt, price completion, window⟩⟩

def builtinRules : List Rule :=
  [listed "ada" 40 40 4096,
   listed "text-ada-001" 40 40 4096,
   listed "babbage" 50 50 4096,
   listed "curie" 200 200 4096,
   listed "text-curie-001" 200 200 4096,
   listed "davinci" 2000 2000 4096,
   listed "text-davinci-001" 2000 2000 4096,
   listed "text-davinci-002" 2000 2000 4096,
   listed "text-davinci-003" 2000 2000 4096,
   listed "gpt-3.5-turbo" 150 200 4096,
   listed "gpt-3.5-turbo-0301" 150 200 4096,
   listed "gpt-35-turbo" 150 200 4096,
   listed "gpt-3.5-turbo-1106" 100 200 4096,
   listed "gpt-3.5-turbo-instruct" 150 200 4096,
   listed "gpt-3.5-turbo-instruct-0914" 150 200 4096,
   listed "gpt-4" 3000 6000 8192,
   listed "gpt-4-0314" 3000 6000 8192,
   listed "gpt-4-0613" 3000 6000 8192,
   listed "gpt-4-32k" 6000 12000 32768,
   listed "gpt-4-32k-0314" 6000 12000 32768,
   listed "gpt-4-32k-0613" 6000 12000 32768,
   listed "gpt-4-0125-preview" 1000 3000 128000,
   listed "gpt-4-1106-preview" 1000 3000 128000,
   listed "gpt-4-1106-vision-preview" 1000 3000 128000,
   listed "gpt-4o" 500 1500 8192,
   listed "gpt-4o-2024-05-13" 500 1500 8192,
   listed "gpt-4o-mini" 15 60 8192,
   listed "gpt-4o-mini-2024-07-18" 15 60 8192,
   listed "gpt-3.5-turbo-0613" 150 200 4096,
   listed "gpt-35-turbo-16k" 300 400 16384,
   listed "gpt-3.5-turbo-16k-0613" 300 400 16384,
   listed "gpt-3.5-turbo-0125" 50 150 4096,
   listed "gpt-4-turbo" 1000 3000 128000,
   listed "gpt-4-turbo-2024-04-09" 1000 3000 128000,
   listed "gpt-4-turbo-0125-preview" 1000 3000 128000,
   listed "text-embedding-ada-002" 10 0 8192,
   listed "text-embedding-ada" 10 0 8192,
   listed "text-embedding-ada-002-v2" 10 0 8192,
   listed "text-embedding-3-small" 2 0 8192,
   listed "text-embedding-3-large" 13 0 8192,
   listed "gpt-4-vision-preview" 1000 3000 128000,
   listed "gpt-35-turbo-16k-0613" 300 400 16384,
   listed "gpt-4o-2024-08-06" 250 1000 8192,
   listed "o1-preview" 1500 6000 8192,
   listed "o1-preview-2024-09-12" 1500 6000 8192,
   listed "o1-mini" 300 1200 8192,
   listed "o1-mini-2024-09-12" 300 1200 8192]

def builtin : Except PricingError PriceTable := PriceTable.ofRules builtinRules .free

end RequestLog.Pricing
