/-! A script to show what there is: two windows, handlers and functions that serve as
components. -/
namespace WidgetScript.Console

def demoPath : String := "ui/demo.nabu"

def demoLines : List String := [
  "# ui/demo.nabu",
  "# Two-window demo: a main application window and a small dialog.",
  "",
  "# ── Handlers ──────────────────────────────────────────────────────────────",
  "",
  "def handle_button_click(params)",
  "  puts(\"button clicked: #\x7bparams['id']\x7d\")",
  "",
  "  \x7b",
  "    updates: [",
  "      \x7b",
  "        id: \"result_text\",",
  "        action: \"setText\",",
  "        value: \"You clicked the button #\x7bparams['id']\x7d\"",
  "      \x7d",
  "    ]",
  "  \x7d",
  "end",
  "",
  "def handle_input_submit(params)",
  "  value = params['value']",
  "  puts(\"input submitted: #\x7bvalue\x7d\")",
  "",
  "  \x7b",
  "    updates: [",
  "      \x7b",
  "        id: \"result_text\",",
  "        action: \"setText\",",
  "        value: \"You entered: #\x7bvalue\x7d\"",
  "      \x7d",
  "    ]",
  "  \x7d",
  "end",
  "",
  "# ── Components ────────────────────────────────────────────────────────────",
  "",
  "def nav_button(id, label)",
  "  button(id: id, text: label, on_click: \"handle_button_click\")",
  "end",
  "",
  "def form_field(name, label)",
  "  text(id: \"#\x7bname\x7d_label\", content: label, align: \"right\")",
  "  input(id: \"#\x7bname\x7d_input\", placeholder: \"Enter your #\x7bname\x7d\", width: 250, on_submit: \"handle_input_submit\")",
  "end",
  "",
  "# ── Main window ───────────────────────────────────────────────────────────",
  "",
  "window(id: \"main_window\", title: \"OS-like UI demo\", width: 800, height: 600, x: 100, y: 50) do",
  "  # Header with logo and title",
  "  row(id: \"header\", spacing: 10) do",
  "    image(id: \"logo\", source: \"assets/logo.png\", width: 50, height: 50)",
  "    text(id: \"title\", content: \"Demo application\", size: 24, color: \"rgb(240, 240, 255)\")",
  "  end",
  "",
  "  # Toolbar",
  "  row(id: \"toolbar\", spacing: 5) do",
  "    button(id: \"new_btn\", text: \"New\", on_click: \"handle_button_click\", icon: \"assets/icons/new.png\")",
  "    button(id: \"open_btn\", text: \"Open\", on_click: \"handle_button_click\", icon: \"assets/icons/open.png\")",
  "    button(id: \"save_btn\", text: \"Save\", on_click: \"handle_button_click\", icon: \"assets/icons/save.png\")",
  "  end",
  "",
  "  row(id: \"content\", spacing: 10) do",
  "    # Sidebar navigation",
  "    column(id: \"sidebar\", spacing: 5, width: 200) do",
  "      text(id: \"nav_title\", content: \"Navigation\", size: 18, color: \"rgb(200, 200, 255)\")",
  "",
  "      list(id: \"nav_list\", direction: \"vertical\", spacing: 2) do",
  "        nav_button(\"nav_home\", \"Home\")",
  "        nav_button(\"nav_projects\", \"Projects\")",
  "        nav_button(\"nav_settings\", \"Settings\")",
  "        nav_button(\"nav_help\", \"Help\")",
  "      end",
  "",
  "      text(id: \"preview_title\", content: \"3D preview\", size: 18, color: \"rgb(200, 200, 255)\")",
  "      viewport3d(id: \"preview_3d\", width: 180, height: 150, camera: \x7b position: [0, 3, 5], target: [0, 0, 0] \x7d)",
  "    end",
  "",
  "    column(id: \"main_content\", spacing: 10) do",
  "      text(id: \"form_title\", content: \"Sample form\", size: 20, color: \"rgb(220, 220, 255)\")",
  "",
  "      grid(id: \"form_grid\", columns: 2, spacing: 10) do",
  "        form_field(\"name\", \"Name:\")",
  "        form_field(\"email\", \"Email:\")",
  "        form_field(\"age\", \"Age:\")",
  "      end",
  "",
  "      button(id: \"submit_btn\", text: \"Submit\", on_click: \"handle_button_click\")",
  "",
  "      text(id: \"result_text\", content: \"Results will appear here\", color: \"rgb(180, 180, 255)\")",
  "",
  "      text(id: \"canvas_title\", content: \"Drawing area\", size: 18, color: \"rgb(200, 200, 255)\")",
  "      canvas(id: \"drawing_canvas\", width: 400, height: 200)",
  "    end",
  "  end",
  "",
  "  row(id: \"footer\", spacing: 5) do",
  "    text(id: \"footer_text\", content: \"Modular UI with a script DSL\", size: 12, color: \"#969696\")",
  "  end",
  "end",
  "",
  "# ── Dialog ────────────────────────────────────────────────────────────────",
  "",
  "window(id: \"dialog\", title: \"Sample dialog\", width: 400, height: 200, x: 300, y: 200) do",
  "  column(id: \"dialog_content\", spacing: 10) do",
  "    text(id: \"dialog_text\", content: \"This is a sample dialog window.\\nYou can move and resize it.\", align: \"center\")",
  "",
  "    row(id: \"dialog_buttons\", spacing: 10, align: \"center\") do",
  "      button(id: \"dialog_ok\", text: \"OK\", on_click: \"handle_button_click\")",
  "      button(id: \"dialog_cancel\", text: \"Cancel\", on_click: \"handle_button_click\")",
  "    end",
  "  end",
  "end" ]

def demo : String := String.join (demoLines.map (· ++ "\n"))

end WidgetScript.Console
