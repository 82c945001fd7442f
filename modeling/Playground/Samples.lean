import Playground.Buffers
import Playground.Language

/-!
# Sample programs

What an editor starts from: one program for each language, and a page of three files
whose layout holds both default sentinels.
-/

namespace Playground

namespace Sample

/-- Lines joined into a text without a final line break. -/
def lines (parts : List String) : String :=
  "\n".intercalate parts

/-- The JavaScript program. -/
def javaScript : String :=
  lines [
    "// JavaScript Example",
    "console.log(\"Hello, World!\");"]

/-- The TypeScript program. -/
def typeScript : String :=
  lines [
    "// TypeScript Example",
    "const greeting: string = \"Hello, World!\";",
    "console.log(greeting);"]

/-- The Python program. -/
def python : String :=
  lines [
    "# Python Example",
    "print(\"Hello, World!\")"]

/-- The C++ program. -/
def cpp : String :=
  lines [
    "// C++ Example",
    "#include <iostream>",
    "using namespace std;",
    "",
    "int main() \x7b",
    "    cout << \"Hello, World!\" << endl;",
    "    return 0;",
    "\x7d"]

/-- The Java program. -/
def java : String :=
  lines [
    "// Java Example",
    "public class Main \x7b",
    "    public static void main(String[] args) \x7b",
    "        System.out.println(\"Hello, World!\");",
    "    \x7d",
    "\x7d"]

/-- The layout of the page. -/
def layout : String :=
  lines [
    "<!DOCTYPE html>",
    "<html lang=\"en\">",
    "<head>",
    "    <meta charset=\"UTF-8\">",
    "    <meta name=\"viewport\" content=\"width=device-width, initial-scale=1.0\">",
    "    <title>HTML/CSS/JS Example</title>",
    "    <link rel=\"stylesheet\" href=\"styles.css\">",
    "</head>",
    "<body>",
    "    <div class=\"container\">",
    "        <h1>Hello, World!</h1>",
    "        <button class=\"button\" onclick=\"handleClick()\">Click Me</button>",
    "        <p id=\"message\"></p>",
    "    </div>",
    "    <script src=\"script.js\"></script>",
    "</body>",
    "</html>"]

/-- The style of the page. -/
def style : String :=
  lines [
    "body \x7b",
    "    font-family: Arial, sans-serif;",
    "    background: linear-gradient(135deg, #0284c7 60%, #0369a1 100%);",
    "    display: flex;",
    "    justify-content: center;",
    "    align-items: center;",
    "    height: 100vh;",
    "    margin: 0;",
    "\x7d",
    "",
    ".container \x7b",
    "    background: white;",
    "    padding: 40px;",
    "    border-radius: 10px;",
    "    box-shadow: 0 10px 30px rgba(0,0,0,0.2);",
    "    text-align: center;",
    "\x7d",
    "",
    "h1 \x7b",
    "    color: #0c4a6e;",
    "    margin-bottom: 20px;",
    "\x7d",
    "",
    ".button \x7b",
    "    background: #0284c7;",
    "    color: white;",
    "    padding: 12px 30px;",
    "    border: none;",
    "    border-radius: 5px;",
    "    cursor: pointer;",
    "    font-size: 16px;",
    "    transition: background 0.3s;",
    "\x7d",
    "",
    ".button:hover \x7b",
    "    background: #0369a1;",
    "\x7d",
    "",
    "#message \x7b",
    "    margin-top: 20px;",
    "    font-size: 18px;",
    "    color: #0369a1;",
    "    font-weight: bold;",
    "\x7d"]

/-- The behavior of the page. -/
def behavior : String :=
  lines [
    "function handleClick() \x7b",
    "    const message = document.getElementById('message');",
    "    message.textContent = 'Button clicked! JavaScript is working!';",
    "    console.log('Button was clicked!');",
    "\x7d"]

end Sample

/-- The buffers an editor starts from. -/
def Language.sample : Language → Buffers
  | .html => .ofPage ⟨Sample.layout, Sample.style, Sample.behavior⟩
  | .javaScript => .ofProgram (.text Sample.javaScript)
  | .typeScript => .ofProgram (.text Sample.typeScript)
  | .python => .ofProgram (.text Sample.python)
  | .cpp => .ofProgram (.text Sample.cpp)
  | .java => .ofProgram (.text Sample.java)

end Playground
